import CoLinux.Kernel.Coherence
import CoLinux.Kernel.Proofs.AllocPages

/-!
# When `co_alloc_pages` is atomic on failure

The error path of `co_alloc_pages` frees every page of the range up to the one that failed,
including those that were mapped before the call. `coAllocPages_atomic_iff` says exactly from
which states no behaviour of the host shows this.
-/

namespace CoLinux

open Lib

variable {w w' w'' : World} {v i n : Nat}

/-- The recorded frames, the page table entries, the reversed map and the contents of the mapped
pages of `w'` are those of `w`. -/
structure Unchanged (w w' : World) : Prop where
  ppPfn : ∀ n, w'.ppPfn n = w.ppPfn n
  pte : ∀ v < w.ramPages, w'.pte v = w.pte v
  reversed : ∀ p, p / ptrsPerPte < w.manager.reversedPageCount → w'.reversed p = w.reversed p
  contents : ∀ v < w.ramPages, w.ppPfn (ramPage v) ≠ 0 → FrameKept w w' (w.ppPfn (ramPage v))

/-- However the host behaves, as long as it hands out covered frames: when `co_alloc_pages`
returns an error, it has changed nothing. -/
def AtomicOnFailure (w : World) (v : Nat) (numPages : Int) : Prop :=
  ∀ host : Host, host.out = w.host.out → (w.setHost host).Covered →
    (coAllocPages (ramAddress v) numPages (w.setHost host)).1 ≠ .ok →
      Unchanged w (coAllocPages (ramAddress v) numPages (w.setHost host)).2

/-- Page `i` of the range can be the first one that fails: it has no frame, and the host has
frames for the pages before it that have none. -/
def CanFailAt (w : World) (v i : Nat) : Prop :=
  w.ppPfn (ramPage (v + i)) = 0 ∧ (unmappedBefore w v i).length ≤ w.freeFrames.length

/-- Before every page that can fail no page of the range has a frame or a page table entry, and
if there is a page before it, no frame the host can hand out has a word in the reversed map. -/
def RollbackSafe (w : World) (v n : Nat) : Prop :=
  ∀ i < n, CanFailAt w v i →
    (∀ j < i, w.ppPfn (ramPage (v + j)) = 0 ∧ w.pte (v + j) = 0) ∧
    (0 < i → ∀ p ∈ w.freeFrames, w.reversed p = 0)

theorem PagesInv.setHost (inv : PagesInv w) {host : Host} (out : host.out = w.host.out)
    (covered : (w.setHost host).Covered) : PagesInv (w.setHost host) := by
  obtain ⟨loaded, frames, size, tables, -, virtualFrame⟩ := inv
  refine ⟨⟨loaded.1, loaded.2, loaded.3, fun k hk => ?_, loaded.5, loaded.6⟩,
    ⟨fun n hn => ?_, frames.2, frames.3, frames.4⟩, size, tables, covered, fun u hu => ?_⟩
  · exact (show _ ∈ host.out from out ▸ loaded.4 k hk)
  · exact (show _ ∈ host.out from out ▸ frames.1 n hn)
  · exact ⟨(virtualFrame u hu).1, (virtualFrame u hu).2, (virtualFrame u hu).3⟩

theorem freeFrames_setHost {host : Host} (out : host.out = w.host.out) :
    (w.setHost host).freeFrames = w.freeFrames := by
  simp only [World.freeFrames, setHost_manager, setHost_host, out]

/-! ## The condition is enough -/

/-- Rolling back a prefix of pages that had neither frame nor entry restores everything. -/
theorem Freed.unchanged (inv : PagesInv w) (range : v + i ≤ w.ramPages)
    (free : ∀ j < i, w.ppPfn (ramPage (v + j)) = 0 ∧ w.pte (v + j) = 0)
    (words : 0 < i → ∀ p ∈ w.freeFrames, w.reversed p = 0)
    (alloc : Allocated w v i w') (freed : Freed w' v i w'') : Unchanged w w'' := by
  have ramPages := alloc.machine.ramPages
  have manager := alloc.machine.manager
  refine ⟨fun n => ?_, fun u hu => ?_, fun p cov => ?_, fun u hu hp k hk => ?_⟩
  · by_cases inside : ∃ j < i, n = ramPage (v + j)
    · obtain ⟨j, hj, rfl⟩ := inside
      rw [freed.freed j hj, (free j hj).1]
    · have outside : ∀ j < i, n ≠ ramPage (v + j) := fun j hj h => inside ⟨j, hj, h⟩
      rw [freed.outside n outside, alloc.outside n outside]
  · by_cases inside : ∃ j < i, u = v + j
    · obtain ⟨j, hj, rfl⟩ := inside
      rw [freed.cleared j hj, (free j hj).2]
    · have outside : ∀ j < i, u ≠ v + j := fun j hj h => inside ⟨j, hj, h⟩
      rw [freed.pte u (ramPages ▸ hu) outside, alloc.pte u hu outside]
  · rcases freed.reversed p (manager ▸ cov) with same | ⟨j, hj, rfl⟩
    · rcases alloc.reversed p cov with kept | ⟨j, hj, rfl⟩
      · exact same.trans kept
      · rw [freed.forgotten j hj, words (by omega) _ (alloc.new j hj (free j hj).1)]
    · rw [freed.forgotten j hj, words (by omega) _ (alloc.new j hj (free j hj).1)]
  · have table : ∀ x < w.ramPages, w.ppPfn (tablePage x) ≠ w.ppPfn (ramPage u) := fun x hx same =>
      tablePage_ne_ramPage (Nat.lt_of_lt_of_le hu inv.size) x
        (inv.frames.distinct _ _ (inv.tables x hx) same)
    have back : ∀ k < w.manager.reversedPageCount,
        w.manager.reversedMapPfns k ≠ w.ppPfn (ramPage u) := inv.frames.notReversed _ hp
    rw [freed.kept _ (fun x hx => ?_) (by rwa [manager]) k hk]
    · exact alloc.kept _ table back k hk
    · rw [alloc.outside _ fun j hj => tablePage_ne_ramPage (by have := inv.size; omega) x]
      exact table x (ramPages ▸ hx)

theorem atomic_of_rollbackSafe {numPages : Int} (inv : PagesInv w)
    (range : v + numPages.toNat ≤ w.ramPages) (safe : RollbackSafe w v numPages.toNat) :
    AtomicOnFailure w v numPages := by
  intro host out covered failed
  have inv' := inv.setHost out covered
  have range' : v + 0 + numPages.toNat ≤ 251904 := Nat.le_trans range inv.size
  rcases allocPagesLoop_cases (w := w.setHost host) range'
    (fun j hj => absurd hj (Nat.not_lt_zero _)) with ⟨ok, -⟩ | ⟨-, k, hk, before, fails, final⟩
  · exact absurd ok failed
  · have hv : v + k < w.ramPages := by omega
    have alloc := allocPrefix_allocated inv' (Nat.le_of_lt hv) before
    obtain ⟨alloc', free⟩ := alloc.failed hv fails
    have canFail : CanFailAt w v k := ⟨free, by
      have := alloc.enoughFrames
      rwa [freeFrames_setHost out] at this⟩
    obtain ⟨clear, words⟩ := safe k (by omega) canFail
    have rollback := freePagesLoop_freed alloc'.inv
      (by rw [alloc'.machine.ramPages]; exact Nat.le_of_lt hv) fun j hj => alloc'.mapped hj
    have same := rollback.unchanged inv' (Nat.le_of_lt hv) clear
      (by rwa [freeFrames_setHost out]) alloc'
    rw [show (coAllocPages (ramAddress v) numPages (w.setHost host)).2 = _ from final]
    exact ⟨same.ppPfn, same.pte, same.reversed, same.contents⟩

/-! ## The condition is necessary

A host that grants every block of memory and the frames of a list, and refuses from then on,
makes the call fail at a page of our choice. -/

theorem allocPpGroup_granted (failure : CoRc) (g : Nat) {k : Nat}
    (mallocs : w.host.mallocs = List.replicate (k + 1) true) :
    (allocPpGroup failure g w).1 = .ok ∧ ∃ k' ≥ k,
      (allocPpGroup failure g w).2.host = { w.host with mallocs := List.replicate k' true } := by
  unfold allocPpGroup
  by_cases present : (w.monitor.ppPfns g).isSome
  · rw [if_pos present]
    exact ⟨rfl, k + 1, by omega, by rw [← mallocs]⟩
  · rw [if_neg present]
    have granted : coMonitorMalloc w = (.ok, { w with
        monitor := { w.monitor with blocksAllocated := w.monitor.blocksAllocated + 1 }
        host := { w.host with mallocs := List.replicate k true } }) := by
      simp [coMonitorMalloc, coOsMalloc, mallocs, List.replicate_succ, World.setHost]
    rw [granted]
    exact ⟨rfl, k, Nat.le_refl _, rfl⟩

theorem coManagerGetPage_granted {p : Nat} {rest : List (Option Nat)}
    (answers : w.host.answers = some p :: rest) (free : p ∈ w.freeFrames) :
    coManagerGetPage w =
      (.ok p, w.setHost { w.host with answers := rest, out := p :: w.host.out }) := by
  obtain ⟨low, ne, -, fresh⟩ := mem_freeFrames.mp free
  simp [coManagerGetPage, coOsGetPage, answers, ne, fresh, Nat.not_le.mpr low]

/-- A page with a frame needs nothing from the host. -/
theorem coMonitorAllocAndMapPage_recorded (recorded : w.ppPfn (ramPage v) ≠ 0) :
    coMonitorAllocAndMapPage (ramAddress v) w = (.ok, w) := by
  have group : allocPpGroup .outOfMemory (ramPage v / ptrsPerPte) w = (.ok, w) := by
    rw [allocPpGroup, if_pos (ppPfn_group recorded)]
  simp only [coMonitorAllocAndMapPage, ramAddress_page, group, Step.andThen_ok]
  rw [if_pos recorded]

/-- A page without a frame takes the frame the host offers and fails when it offers none. -/
theorem coMonitorAllocAndMapPage_offered (hv : v < 251904) {k : Nat}
    (table : w.ppPfn (tablePage v) ≠ 0) (free : w.ppPfn (ramPage v) = 0)
    (mallocs : w.host.mallocs = List.replicate (k + 1) true) :
    let r := coMonitorAllocAndMapPage (ramAddress v) w
    (∀ p rest, w.host.answers = some p :: rest → p ∈ w.freeFrames →
      r.1 = .ok ∧ r.2.ppPfn (ramPage v) = p ∧ r.2.host.out = p :: w.host.out ∧
        r.2.host.answers = rest ∧ ∃ k' ≥ k, r.2.host.mallocs = List.replicate k' true) ∧
    (w.host.answers = [] → r.1 ≠ .ok) := by
  intro r
  obtain ⟨outcome, quiet, -, -⟩ :=
    allocPpGroup_cases .outOfMemory (by decide) (ramPage v / ptrsPerPte) w
  obtain ⟨ok, k', hk', host⟩ := allocPpGroup_granted .outOfMemory (ramPage v / ptrsPerPte) mallocs
  have hr : r = _ := coMonitorAllocAndMapPage_ram v w
  generalize allocPpGroup .outOfMemory (ramPage v / ptrsPerPte) w = g at outcome quiet ok host hr
  obtain ⟨rc, w1⟩ := g
  obtain rfl : rc = .ok := ok
  have group := (outcome.resolve_left fun h => h.1 rfl).2
  dsimp only at quiet host hr group
  rw [Step.andThen_ok, if_neg (by rw [quiet.ppPfn]; simpa using free)] at hr
  refine ⟨fun p rest answers offered => ?_, fun answers => ?_⟩
  · have offered1 : p ∈ w1.freeFrames := by
      obtain ⟨low, ne, cov, fresh⟩ := mem_freeFrames.mp offered
      exact mem_freeFrames.mpr ⟨quiet.manager ▸ low, ne, quiet.manager ▸ cov, by rwa [host]⟩
    have cov := (mem_freeFrames.mp offered1).2.2.1
    rw [coManagerGetPage_granted (by rw [host]; exact answers) offered1] at hr
    dsimp only at hr
    rw [mapPage_covered (w := w1.setHost _) hv (by simpa [quiet.ppPfn] using table)
      (by simpa using group) (by simpa using cov)] at hr
    rw [hr]
    refine ⟨rfl, ?_, by simp [host], by simp, k', hk', by simp [host]⟩
    rw [ppPfn_setMem, ppPfn_setPpPfn (by simpa using group), if_pos rfl]
  · have refused : coManagerGetPage w1 = (.error .outOfMemory, w1) := by
      simp [coManagerGetPage, coOsGetPage, host, answers]
    rw [refused] at hr
    rw [hr]
    simp

theorem unmappedBefore_succ : unmappedBefore w v (i + 1) =
    if w.ppPfn (ramPage (v + i)) = 0 then unmappedBefore w v i ++ [i]
    else unmappedBefore w v i := by
  unfold unmappedBefore
  rw [List.range_succ, List.filter_append]
  by_cases h : w.ppPfn (ramPage (v + i)) = 0 <;> simp [h]

/-- `w'` is `w` after the first `i` pages were served from the frames `fs`. -/
structure Served (w : World) (v i m : Nat) (fs : List Nat) (w' : World) : Prop where
  mallocs : ∃ k ≥ m, w'.host.mallocs = List.replicate k true
  answers : w'.host.answers = (fs.drop (unmappedBefore w v i).length).map some
  out : ∀ q ∈ w'.host.out, q ∈ w.host.out ∨ q ∈ fs.take (unmappedBefore w v i).length
  taken : ∀ p ∈ fs.take (unmappedBefore w v i).length, ∃ j < i, w'.ppPfn (ramPage (v + j)) = p

/-- The host that offers the frames `fs` and then nothing. -/
def offering (w : World) (n : Nat) (fs : List Nat) : Host :=
  { out := w.host.out, answers := fs.map some, mallocs := List.replicate n true }

/-- The next page is served too, from the next frame of the list when it needs one. -/
theorem Served.next {fs : List Nat} {w0 : World} (served : Served w v i (n + 1) fs w')
    (hv : v + i < w.ramPages) (nodup : fs.Nodup) (free : ∀ p ∈ fs, p ∈ w.freeFrames)
    (enough : (unmappedBefore w v (i + 1)).length ≤ fs.length)
    (alloc : Allocated w0 v i w')
    (same : w0.ramPages = w.ramPages ∧ w0.ppPfn = w.ppPfn ∧ w0.manager = w.manager) :
    (coMonitorAllocAndMapPage (ramAddress (v + i)) w').1 = .ok ∧
      Served w v (i + 1) n fs (coMonitorAllocAndMapPage (ramAddress (v + i)) w').2 := by
  obtain ⟨samePages, samePfns, sameManager⟩ := same
  have hv' : v + i < w'.ramPages := by rw [alloc.machine.ramPages, samePages]; exact hv
  have current : w'.ppPfn (ramPage (v + i)) = w.ppPfn (ramPage (v + i)) := by
    rw [alloc.later (Nat.le_refl _), samePfns]
  have step := (coMonitorAllocAndMapPage_step alloc.inv hv').1
  obtain ⟨k, hk, mallocs⟩ := served.mallocs
  have count := unmappedBefore_succ (w := w) (v := v) (i := i)
  by_cases unmapped : w.ppPfn (ramPage (v + i)) = 0
  · rw [if_pos unmapped] at count
    have length : (unmappedBefore w v (i + 1)).length = (unmappedBefore w v i).length + 1 := by
      rw [count, List.length_append]
      rfl
    have lt : (unmappedBefore w v i).length < fs.length := by omega
    have here := List.drop_eq_getElem_cons lt
    have upTo := List.take_append_getElem lt
    have offered : fs[(unmappedBefore w v i).length] ∈ w'.freeFrames := by
      obtain ⟨low, ne, cov, fresh⟩ := mem_freeFrames.mp (free _ (List.getElem_mem lt))
      rw [← sameManager, ← alloc.machine.manager] at low cov
      refine mem_freeFrames.mpr ⟨low, ne, cov, fun out => ?_⟩
      rcases served.out _ out with old | earlier
      · exact fresh old
      · exact List.disjoint_take_drop nodup (Nat.le_refl _) earlier
          (here ▸ List.mem_cons_self)
    obtain ⟨k', rfl⟩ : ∃ k', k = k' + 1 := ⟨k - 1, by omega⟩
    obtain ⟨ok, pfn, out, answers, k'', hk'', mallocs'⟩ :=
      (coMonitorAllocAndMapPage_offered (Nat.lt_of_lt_of_le hv' alloc.inv.size)
        (alloc.inv.tables _ hv') (current.trans unmapped) mallocs).1 _ _
          (by rw [served.answers, here, List.map_cons]) offered
    refine ⟨ok, ⟨k'', by omega, mallocs'⟩, by rw [answers, length], fun q hq => ?_,
      fun p hp => ?_⟩
    · rw [length, ← upTo]
      rw [out] at hq
      rcases List.mem_cons.mp hq with rfl | hq
      · exact .inr (List.mem_append_right _ List.mem_cons_self)
      · exact (served.out q hq).imp id fun h => List.mem_append_left _ h
    · rw [length, ← upTo] at hp
      rcases List.mem_append.mp hp with hp | hp
      · obtain ⟨j, hj, at'⟩ := served.taken p hp
        refine ⟨j, by omega, (step.other _ fun h => ?_).trans at'⟩
        have := ramPage_inj h
        omega
      · exact ⟨i, by omega, pfn.trans (List.mem_singleton.mp hp).symm⟩
  · rw [if_neg unmapped] at count
    rw [coMonitorAllocAndMapPage_recorded (by rwa [current])]
    refine ⟨rfl, ⟨k, by omega, mallocs⟩, by rw [count]; exact served.answers,
      by rw [count]; exact served.out, fun p hp => ?_⟩
    rw [count] at hp
    obtain ⟨j, hj, at'⟩ := served.taken p hp
    exact ⟨j, by omega, at'⟩

/-- A host with frames for all pages that need one serves the whole prefix. -/
theorem served_prefix {fs : List Nat} (inv : PagesInv w) (range : v + i ≤ w.ramPages)
    (nodup : fs.Nodup) (free : ∀ p ∈ fs, p ∈ w.freeFrames)
    (covered : (w.setHost (offering w (i + n) fs)).Covered)
    (enough : (unmappedBefore w v i).length ≤ fs.length) :
    (∀ j < i, allocResult v (w.setHost (offering w (i + n) fs)) j = .ok) ∧
      Served w v i n fs (allocPrefix v (w.setHost (offering w (i + n) fs)) i) := by
  induction i generalizing n with
  | zero =>
    refine ⟨fun _ h => absurd h (Nat.not_lt_zero _), ⟨⟨n, Nat.le_refl _, ?_⟩, rfl,
      fun q hq => .inl hq, fun p hp => ?_⟩⟩
    · rw [Nat.zero_add]
      rfl
    · simp [unmappedBefore] at hp
  | succ i ih =>
    have count := unmappedBefore_succ (w := w) (v := v) (i := i)
    have hs : i + 1 + n = i + (n + 1) := by omega
    rw [hs] at covered ⊢
    have shorter : (unmappedBefore w v i).length ≤ fs.length := by
      rw [count] at enough
      split at enough
      · rw [List.length_append] at enough
        omega
      · exact enough
    obtain ⟨before, served⟩ := ih (by omega) covered shorter
    have inv' : PagesInv (w.setHost (offering w (i + (n + 1)) fs)) := inv.setHost rfl covered
    have hv : v + i < (w.setHost (offering w (i + (n + 1)) fs)).ramPages := by
      show v + i < w.ramPages
      omega
    have alloc := allocPrefix_allocated inv' (Nat.le_of_lt hv) before
    have last : ∀ w', w' = allocPrefix v (w.setHost (offering w (i + (n + 1)) fs)) i →
        (coMonitorAllocAndMapPage (ramAddress (v + i)) w').1 = .ok ∧
          Served w v (i + 1) n fs (coMonitorAllocAndMapPage (ramAddress (v + i)) w').2 := by
      rintro w' rfl
      exact served.next (by omega) nodup free enough alloc ⟨rfl, rfl, rfl⟩
    refine ⟨fun j hj => ?_, (last _ rfl).2⟩
    by_cases same : j = i
    · exact same ▸ (last _ rfl).1
    · exact before j (by omega)

/-- The host that offers exactly the frames needed before page `i` makes the call fail there,
after which every page before it is unmapped and every offered frame forgotten. -/
theorem fails_at {numPages : Int} {fs : List Nat} (inv : PagesInv w)
    (range : v + numPages.toNat ≤ w.ramPages) (hi : i < numPages.toNat)
    (unmapped : w.ppPfn (ramPage (v + i)) = 0) (nodup : fs.Nodup)
    (free : ∀ p ∈ fs, p ∈ w.freeFrames) (length : fs.length = (unmappedBefore w v i).length)
    (atomic : AtomicOnFailure w v numPages) :
    (∀ j < i, w.ppPfn (ramPage (v + j)) = 0 ∧ w.pte (v + j) = 0) ∧
      ∀ p ∈ fs, w.reversed p = 0 := by
  have covered : (w.setHost (offering w (i + 1) fs)).Covered := by
    intro p hp _
    obtain ⟨q, hq, same⟩ := List.mem_map.mp hp
    obtain rfl : q = p := Option.some.inj same
    exact (mem_freeFrames.mp (free q hq)).2.2.1
  have inv' : PagesInv (w.setHost (offering w (i + 1) fs)) := inv.setHost rfl covered
  obtain ⟨before, served⟩ := served_prefix inv (show v + i ≤ w.ramPages by omega) nodup free
    covered (Nat.le_of_eq length.symm)
  have hv : v + i < (w.setHost (offering w (i + 1) fs)).ramPages := by
    show v + i < w.ramPages
    omega
  have alloc := allocPrefix_allocated inv' (Nat.le_of_lt hv) before
  have fails : allocResult v (w.setHost (offering w (i + 1) fs)) i ≠ .ok := by
    obtain ⟨k, hk, mallocs⟩ := served.mallocs
    obtain ⟨k', rfl⟩ : ∃ k', k = k' + 1 := ⟨k - 1, by omega⟩
    have hv' := alloc.machine.ramPages ▸ hv
    refine (coMonitorAllocAndMapPage_offered (Nat.lt_of_lt_of_le hv' alloc.inv.size)
      (alloc.inv.tables _ hv') ((alloc.later (Nat.le_refl i)).trans unmapped) mallocs).2 ?_
    rw [served.answers, ← length, List.drop_length, List.map_nil]
  obtain ⟨alloc', -⟩ := alloc.failed hv fails
  have rollback := freePagesLoop_freed alloc'.inv
    (by rw [alloc'.machine.ramPages]; exact Nat.le_of_lt hv) fun j hj => alloc'.mapped hj
  have range' : v + 0 + numPages.toNat ≤ 251904 := Nat.le_trans range inv.size
  have same : Unchanged w (freePagesLoop i (ramAddress v)
      (allocPrefix v (w.setHost (offering w (i + 1) fs)) (i + 1))) := by
    rcases allocPagesLoop_cases (w := w.setHost (offering w (i + 1) fs)) range'
      (fun j hj => absurd hj (Nat.not_lt_zero _)) with ⟨-, all⟩ | ⟨failed, k, hk, upTo, stop, final⟩
    · exact absurd (all i (by omega)) fails
    · obtain rfl : k = i := by
        rcases Nat.lt_trichotomy k i with lt | eq | gt
        · exact absurd (before k lt) stop
        · exact eq
        · exact absurd (upTo i gt) fails
      rw [← final]
      exact atomic _ rfl covered failed
  refine ⟨fun j hj => ⟨?_, ?_⟩, fun p hp => ?_⟩
  · exact (same.ppPfn _).symm.trans (rollback.freed j hj)
  · exact (same.pte _ (by omega)).symm.trans (rollback.cleared j hj)
  · obtain ⟨j, hj, taken⟩ := served.taken p (by rwa [← length, List.take_length])
    have kept : (coMonitorAllocAndMapPage (ramAddress (v + i))
        (allocPrefix v (w.setHost (offering w (i + 1) fs)) i)).2.ppPfn (ramPage (v + j)) = p := by
      have step := (coMonitorAllocAndMapPage_step alloc.inv (alloc.machine.ramPages ▸ hv)).1
      rw [step.other _ fun h => by
        have := ramPage_inj h
        omega]
      exact taken
    rw [← same.reversed p (mem_freeFrames.mp (free p hp)).2.2.1, ← kept]
    exact rollback.forgotten j hj

theorem rollbackSafe_of_atomic {numPages : Int} (inv : PagesInv w)
    (range : v + numPages.toNat ≤ w.ramPages) (atomic : AtomicOnFailure w v numPages) :
    RollbackSafe w v numPages.toNat := by
  have nodup : w.freeFrames.Nodup := List.nodup_range.filter _
  rintro i hi ⟨unmapped, enough⟩
  have first := fails_at inv range hi unmapped
    ((List.take_sublist (unmappedBefore w v i).length _).nodup nodup)
    (fun p hp => List.mem_of_mem_take hp) (by rw [List.length_take]; omega) atomic
  refine ⟨first.1, fun pos p hp => ?_⟩
  -- every page before `i` needs a frame, so the host can offer `p` among them
  have count : 0 < (unmappedBefore w v i).length :=
    List.length_pos_of_mem (mem_unmappedBefore.mpr ⟨pos, (first.1 0 pos).1⟩)
  have others := (nodup.erase p).sublist
    (List.take_sublist ((unmappedBefore w v i).length - 1) (w.freeFrames.erase p))
  have fresh : p ∉ (w.freeFrames.erase p).take ((unmappedBefore w v i).length - 1) := fun h =>
    (nodup.mem_erase_iff.mp (List.mem_of_mem_take h)).1 rfl
  refine (fails_at inv range hi unmapped (List.nodup_cons.mpr ⟨fresh, others⟩) (fun q hq => ?_) ?_
    atomic).2 p List.mem_cons_self
  · rcases List.mem_cons.mp hq with rfl | hq
    · exact hp
    · exact List.mem_of_mem_erase (List.mem_of_mem_take hq)
  · rw [List.length_cons, List.length_take, List.length_erase_of_mem hp]
    omega

/-- `co_alloc_pages` is atomic on failure exactly from the states in which, before every page
that can fail, the range is unmapped and its rollback has nothing to erase. -/
theorem coAllocPages_atomic_iff {numPages : Int} (inv : PagesInv w)
    (range : v + numPages.toNat ≤ w.ramPages) :
    AtomicOnFailure w v numPages ↔ RollbackSafe w v numPages.toNat :=
  ⟨rollbackSafe_of_atomic inv range, atomic_of_rollbackSafe inv range⟩

/-- From the state `alloc_pp_ram_mapping` leaves, requests for two pages are atomic. -/
theorem coAllocPages_atomic_coveredHost :
    AtomicOnFailure (allocPpRamMapping coveredHost).2 0 2 := by
  have mapped := coveredHost_mapped
  have pages : (allocPpRamMapping coveredHost).2.ramPages = 2048 := by
    obtain ⟨_, _, _, layout⟩ := mapped.monitor
    rw [World.ramPages, layout]
    show coveredHost.monitor.memorySize / 4096 = 2048
    decide
  refine (coAllocPages_atomic_iff (mapped.inv coveredHost_covered) (by rw [pages]; decide)).mpr
    fun i hi _ => ⟨fun j hj => ⟨mapped.free ?_, ?_⟩, fun _ p _ => ?_⟩
  · have : i < 2 := hi
    omega
  · rw [World.pte, mapped.mem]
    rfl
  · rw [World.reversed, mapped.mem]
    rfl

/-- Once the first page is mapped, a request for the first two pages that fails on the second
unmaps the first. -/
theorem coAllocPages_unmaps_earlier_page :
    let w := PageOp.step (.allocAndMap 0xc0000000) (allocPpRamMapping coveredHost).2
    w.ppPfn 0xc0000 = 4112 ∧ (coAllocPages 0xc0000000 2 w).1 = .outOfMemory ∧
      (coAllocPages 0xc0000000 2 w).2.ppPfn 0xc0000 = 0 ∧ ¬ AtomicOnFailure w 0 2 := by
  intro w
  have before : w.ppPfn 0xc0000 = 4112 := by decide +kernel
  refine ⟨before, by decide +kernel, by decide +kernel, fun atomic => ?_⟩
  have covered : (w.setHost w.host).Covered := by
    intro p hp
    have none : w.host.answers = [] := by decide +kernel
    rw [setHost_host, none] at hp
    exact absurd hp List.not_mem_nil
  have failed : (coAllocPages (ramAddress 0) 2 (w.setHost w.host)).1 ≠ .ok := by decide +kernel
  have after : (coAllocPages (ramAddress 0) 2 (w.setHost w.host)).2.ppPfn 0xc0000 = 0 := by
    decide +kernel
  have same := (atomic w.host rfl covered failed).ppPfn 0xc0000
  rw [after, before] at same
  exact absurd same (by decide)

end CoLinux
