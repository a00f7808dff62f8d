import CoLinux.Lib.Run
import CoLinux.Winnt.PageBooks
import Mathlib.Data.List.Perm.Subperm

/-!
# The page allocator over its calls

What every sequence of `co_os_get_page` and `co_os_put_page` keeps.
-/

namespace CoLinux

open Lib

/-! ## The two calls -/

section Calls

variable {o : PageAllocator} {out : List Nat}

/-- A page that `co_os_get_page` takes from `pages_unused` leaves every bucket with a page out
that had one, and the bucket of the page, too. -/
theorem getUnused_live (inv : PageWorld.Inv ⟨o, out⟩)
    (live : ∀ m ∈ o.mdlList, (∃ pfn ∈ m.mdl, pfn ∈ out) ∨
      ∃ p rest, o.pagesUnused = p :: rest ∧ p ∈ m.pfnPtrs)
    (some : o.pagesUnused ≠ []) :
    ∃ pfn o', o.getUnusedMdlPage = (.ok pfn, o') ∧ pfn ∉ out ∧ o'.mdlList = o.mdlList ∧
      o'.held = o.held ∧ pfn ∈ o.held ∧ PageWorld.Inv ⟨o', pfn :: out⟩ ∧
      PageWorld.Live ⟨o', pfn :: out⟩ := by
  obtain ⟨p, rest, head⟩ := List.exists_cons_of_ne_nil some
  obtain ⟨o', result, mdls, -, held, inv'⟩ := inv.get head
  obtain ⟨bucket, notOut⟩ := (inv.unused p).mp (by simp [head])
  refine ⟨p.pfn, o', result, notOut, mdls, held, (inv.held _).mpr ⟨p, .inl bucket, rfl⟩, inv', ?_⟩
  intro m hm
  rcases live m (mdls ▸ hm) with ⟨pfn, hpfn, isOut⟩ | ⟨q, rest', head', hq⟩
  · exact ⟨pfn, hpfn, List.mem_cons_of_mem _ isOut⟩
  · have same : q = p := by
      rw [head] at head'
      injection head' with same
      exact same.symm
    exact ⟨p.pfn, same ▸ (mem_pfnPtrs.mp hq).1, List.mem_cons_self⟩

/-- What a call of `co_os_get_page` does: a frame that was not out is out, or nothing. -/
structure GetSpec (o : PageAllocator) (out : List Nat) (pfn : Nat) (o' : PageAllocator) : Prop where
  new : pfn ∉ out
  given : pfn ∈ o'.held
  inv : PageWorld.Inv ⟨o', pfn :: out⟩
  live : PageWorld.Live ⟨o', pfn :: out⟩
  mdls : ∀ m ∈ o.mdlList, m ∈ o'.mdlList
  held : ∀ x ∈ o.held, x ∈ o'.held

theorem coOsGetPage_spec (inv : PageWorld.Inv ⟨o, out⟩) (live : PageWorld.Live ⟨o, out⟩)
    {host : PageHost} (valid : (PageRequest.get host).Valid ⟨o, out⟩) :
    (∃ pfn o', o.coOsGetPage host = (.ok pfn, o') ∧ GetSpec o out pfn o') ∨
      ∃ rc, o.coOsGetPage host = (.error rc, o) := by
  unfold PageAllocator.coOsGetPage
  dsimp only
  split_ifs with some ok
  · obtain ⟨pfn, o', result, new, mdls, held, given, inv', live'⟩ :=
      getUnused_live inv (fun m hm => .inl (live m hm)) some
    exact .inl ⟨pfn, o', result, new, held ▸ given, inv', live', fun m hm => mdls ▸ hm,
      fun x hx => held ▸ hx⟩
  · obtain ⟨frames, mdl, count, result⟩ := newMdlBucket_ok ok
    obtain ⟨nodup, fresh⟩ := valid.1 frames mdl
    have notNil : frames ≠ [] := fun empty => by simp [empty] at count
    have inv₁ := inv.newBucket nodup fresh notNil
    have empty : o.pagesUnused = [] := not_not.mp some
    rw [result]
    obtain ⟨pfn, o', result', new, mdls, held, given, inv', live'⟩ := by
      refine getUnused_live inv₁ ?_ ?_
      · intro m hm
        rcases List.mem_cons.mp hm with rfl | hm
        · refine .inr ?_
          have some : (MdlPtr.pfnPtrs ⟨frames⟩).reverse ≠ [] := by
            simpa [MdlPtr.pfnPtrs] using notNil
          obtain ⟨p, rest, head⟩ := List.exists_cons_of_ne_nil some
          refine ⟨p, rest ++ o.pagesUnused, ?_, ?_⟩
          · dsimp only
            rw [head, List.cons_append]
          · exact List.mem_reverse.mp (head ▸ List.mem_cons_self)
        · exact .inl (live m hm)
      · simpa [MdlPtr.pfnPtrs] using fun nil => absurd nil notNil
    refine .inl ⟨pfn, o', result', new, held ▸ given, inv', live', ?_, ?_⟩
    · intro m hm
      rw [mdls]
      exact List.mem_cons_of_mem _ hm
    · intro x hx
      rw [held]
      exact List.mem_append_right _ hx
  · rw [newMdlBucket_failed (fun frames h pfn hp => ((valid.1 frames h).2 pfn hp).2) ok]
    unfold PageAllocator.newMappedAllocatedPage
    split_ifs
    · cases given : host.page with
      | none => exact .inr ⟨_, rfl⟩
      | some page =>
        obtain ⟨small, fresh⟩ := valid.2 _ given
        have inv' := @PageWorld.Inv.newMapped o out inv page.1 page.2 small fresh
        refine .inl ⟨page.2, _, rfl, ?_, List.mem_cons_self, inv', ?_, fun m hm => hm,
          fun x hx => List.mem_cons_of_mem page.2 hx⟩
        · exact (List.nodup_cons.mp inv'.outNodup).1
        · intro m hm
          obtain ⟨pfn, hpfn, isOut⟩ := live m hm
          exact ⟨pfn, hpfn, List.mem_cons_of_mem _ isOut⟩
    · exact .inr ⟨_, rfl⟩

/-- What a call of `co_os_put_page` does. -/
structure PutSpec (o : PageAllocator) (out : List Nat) (pfn : Nat) (o' : PageAllocator) : Prop where
  inv : PageWorld.Inv ⟨o', out.erase pfn⟩
  live : PageWorld.Live ⟨o', out.erase pfn⟩
  buckets : ∀ m ∈ o.mdlList, m ∉ o'.mdlList ↔ ∀ x ∈ m.mdl, x ∉ out.erase pfn
  singles : ∀ p ∈ o.mappedAllocatedList, p.pfn ∉ o'.held ↔ p.pfn = pfn

/-- The entry that `co_os_put_page` finds. -/
theorem find_hash (inv : PageWorld.Inv ⟨o, out⟩) {p : PfnPtr} (owns : o.Owns p) :
    (o.pagesHash (pfnHash p.pfn)).find? (fun q => q.pfn = p.pfn) = some p := by
  have there : p ∈ o.pagesHash (pfnHash p.pfn) := (inv.hash _ p).mpr ⟨owns, rfl⟩
  cases found : (o.pagesHash (pfnHash p.pfn)).find? fun q => q.pfn = p.pfn with
  | none => exact absurd (List.find?_eq_none.mp found p there) (by simp)
  | some q =>
    have owned : o.Owns q := ((inv.hash _ q).mp (List.mem_of_find?_eq_some found)).1
    have frame : q.pfn = p.pfn := by simpa using List.find?_some found
    rw [inv.unique q p owned owns frame]

/-- A page of a bucket that stays live, when it is put. -/
theorem Live.erase {o : PageAllocator} {out : List Nat} {pfn : Nat}
    (inv : PageWorld.Inv ⟨o, out⟩) (live : PageWorld.Live ⟨o, out⟩) {m : MdlPtr}
    (hm : m ∈ o.mdlList) (outside : pfn ∉ m.mdl) : ∃ x ∈ m.mdl, x ∈ out.erase pfn := by
  obtain ⟨x, hx, isOut⟩ := live m hm
  refine ⟨x, hx, inv.outNodup.mem_erase_iff.mpr ⟨?_, isOut⟩⟩
  exact fun same => outside (same ▸ hx)

theorem putUnusedMdlPage_spec (inv : PageWorld.Inv ⟨o, out⟩) (live : PageWorld.Live ⟨o, out⟩)
    {p : PfnPtr} {m : MdlPtr} (owns : o.Owns p) (owner : p.owner = .mdl m)
    (isOut : p.pfn ∈ out) : PutSpec o out p.pfn (o.putUnusedMdlPage p m) := by
  obtain ⟨hm, inside⟩ := inv.mdl_of_owns owns owner
  have inv₁ := inv.put owns owner isOut
  have count := inv₁.useCount m hm
  dsimp only at count
  -- a single page lies in no bucket, and stays
  have single : ∀ q ∈ o.mappedAllocatedList, q.pfn ∈ o.held ∧ q.pfn ∉ m.mdl ∧ q.pfn ≠ p.pfn := by
    intro q hq
    refine ⟨(inv.held _).mpr ⟨q, .inr hq, rfl⟩, ?_⟩
    obtain ⟨page, owner'⟩ := (inv.mapped q hq).1
    have frame : q.pfn ∉ m.mdl := by
      intro there
      have same := inv.unique q ⟨q.pfn, .mdl m⟩ (.inr hq)
        (.inl ⟨m, hm, mem_pfnPtrs.mpr ⟨there, rfl⟩⟩) rfl
      rw [same] at owner'
      contradiction
    exact ⟨frame, fun same => frame (same ▸ inside)⟩
  have others : ∀ m' ∈ o.mdlList, m' ≠ m → ∃ x ∈ m'.mdl, x ∈ out.erase p.pfn := by
    intro m' hm' different
    apply Live.erase inv live hm'
    exact fun there => different (inv.bucket_eq hm' hm there inside)
  unfold PageAllocator.putUnusedMdlPage
  dsimp only
  split_ifs with last
  · have none : ∀ x ∈ m.mdl, x ∉ out.erase p.pfn := by
      rw [last] at count
      have zero := List.countP_eq_zero.mp (Int.ofNat_eq_zero.mp count.symm)
      exact fun x hx there => zero x hx (decide_eq_true there)
    obtain ⟨result, inv₂⟩ := @PageWorld.Inv.free { o with
      useCount := Function.update o.useCount m (o.useCount m - 1)
      pagesUnused := p :: o.pagesUnused } (out.erase p.pfn)
      (ulongPred o.pagesAllocated) inv₁ m hm none
    rw [result] at inv₂ ⊢
    refine ⟨inv₂, ?_, ?_, ?_⟩
    · intro m' hm'
      obtain ⟨different, hm'⟩ := inv.mdlNodup.mem_erase_iff.mp hm'
      exact others m' hm' different
    · intro m' hm'
      dsimp only
      rw [inv.mdlNodup.mem_erase_iff]
      constructor
      · intro gone
        have same : m' = m := by
          by_contra different
          exact gone ⟨different, hm'⟩
        exact same ▸ none
      · rintro allBack ⟨different, -⟩
        obtain ⟨x, hx, there⟩ := others m' hm' different
        exact allBack x hx there
    · intro q hq
      obtain ⟨held, frame, different⟩ := single q hq
      simp [held, frame, different]
  · have some : ∃ x ∈ m.mdl, x ∈ out.erase p.pfn := by
      by_contra none
      apply last
      rw [count]
      apply Int.ofNat_eq_zero.mpr
      apply List.countP_eq_zero.mpr
      intro x hx there
      exact none ⟨x, hx, of_decide_eq_true there⟩
    have all : ∀ m' ∈ o.mdlList, ∃ x ∈ m'.mdl, x ∈ out.erase p.pfn := by
      intro m' hm'
      by_cases same : m' = m
      · exact same ▸ some
      · exact others m' hm' same
    refine ⟨inv₁, all, ?_, ?_⟩
    · intro m' hm'
      obtain ⟨x, hx, there⟩ := all m' hm'
      exact ⟨fun gone => absurd hm' gone, fun allBack => absurd there (allBack x hx)⟩
    · intro q hq
      obtain ⟨held, -, different⟩ := single q hq
      exact ⟨fun gone => absurd held gone, fun same => absurd same different⟩

theorem freeMapped_spec (inv : PageWorld.Inv ⟨o, out⟩) (live : PageWorld.Live ⟨o, out⟩)
    {p : PfnPtr} (there : p ∈ o.mappedAllocatedList) :
    PutSpec o out p.pfn (o.freeMappedAllocatedPage p) := by
  obtain ⟨result, inv'⟩ := inv.freeMapped there
  have all : ∀ m ∈ o.mdlList, ∃ x ∈ m.mdl, x ∈ out.erase p.pfn := by
    intro m hm
    apply Live.erase inv live hm
    intro hpfn
    obtain ⟨page, owner⟩ := (inv.mapped p there).1
    have same := inv.unique p ⟨p.pfn, .mdl m⟩ (.inr there)
      (.inl ⟨m, hm, mem_pfnPtrs.mpr ⟨hpfn, rfl⟩⟩) rfl
    rw [same] at owner
    contradiction
  rw [result] at inv' ⊢
  refine ⟨inv', all, ?_, ?_⟩
  · intro m hm
    obtain ⟨x, hx, isOut⟩ := all m hm
    exact ⟨fun gone => absurd hm gone, fun allBack => absurd isOut (allBack x hx)⟩
  · intro q hq
    have held : q.pfn ∈ o.held := (inv.held _).mpr ⟨q, .inr hq, rfl⟩
    simp [held]

theorem coOsPutPage_spec (inv : PageWorld.Inv ⟨o, out⟩) (live : PageWorld.Live ⟨o, out⟩)
    {pfn : Nat} (isOut : pfn ∈ out) : PutSpec o out pfn (o.coOsPutPage pfn) := by
  obtain ⟨p, owns, rfl⟩ := inv.outOwned pfn isOut
  unfold PageAllocator.coOsPutPage
  rw [find_hash inv owns]
  dsimp only
  cases owner : p.owner with
  | mdl m => exact putUnusedMdlPage_spec inv live owns owner isOut
  | page page =>
    have there : p ∈ o.mappedAllocatedList :=
      PageWorld.Inv.mapped_of_owns (w := ⟨o, out⟩) owns owner
    exact freeMapped_spec inv live there

end Calls

/-! ## Sequences of calls -/

/-- What the allocator promises between two calls. -/
structure PageWorld.Sound (w : PageWorld) : Prop where
  /-- No frame is out twice, and every frame that is out is one Windows has given. -/
  out : w.out.Nodup ∧ ∀ pfn ∈ w.out, pfn ∈ w.osdep.held
  /-- The frames Windows has given are those of the buckets and of the single pages. -/
  held : ∀ pfn, pfn ∈ w.osdep.held ↔
    w.osdep.IsMdlFrame pfn ∨ ∃ p ∈ w.osdep.mappedAllocatedList, p.pfn = pfn
  /-- Every such frame has one entry in its chain, and none in another. -/
  hash : ∀ pfn ∈ w.osdep.held, ∀ h, (w.osdep.pagesHash h).countP (fun p => p.pfn = pfn) =
    if h = pfnHash pfn then 1 else 0
  useCount : ∀ m ∈ w.osdep.mdlList, w.osdep.useCount m = m.mdl.countP fun pfn => pfn ∈ w.out
  mdls : w.osdep.mdlsAllocated = w.osdep.mdlList.length
  pages : w.osdep.pagesAllocated = w.out.countP fun pfn => w.osdep.IsMdlFrame pfn
  /-- A bucket is live only while one of its pages is out, a single page while it is. -/
  live : ∀ m ∈ w.osdep.mdlList, ∃ pfn ∈ m.mdl, pfn ∈ w.out
  single : ∀ p ∈ w.osdep.mappedAllocatedList, p.pfn ∈ w.out
  /-- What can be handed out next is a page of a live bucket that is not out. -/
  unused : ∀ p ∈ w.osdep.pagesUnused, w.osdep.IsMdlFrame p.pfn ∧ p.pfn ∉ w.out
  corrupt : w.osdep.corrupt = false

/-- What a call does to the pages. -/
structure PageRequest.Served (w : PageWorld) (r : PageRequest) : Prop where
  /-- The frame that a call hands out was not out. -/
  new : ∀ host pfn, r = .get host → (w.osdep.coOsGetPage host).1 = .ok pfn →
    pfn ∉ w.out ∧ pfn ∈ (r.step w).osdep.held
  /-- A single page goes back to Windows when it is put. -/
  single : ∀ p ∈ w.osdep.mappedAllocatedList, p.pfn ∉ (r.step w).osdep.held ↔ r = .put p.pfn
  /-- A bucket is freed when the last of its pages that was out comes back. -/
  bucket : ∀ m ∈ w.osdep.mdlList,
    m ∉ (r.step w).osdep.mdlList ↔ ∀ pfn ∈ m.mdl, pfn ∉ (r.step w).out

section Runs

variable {w : PageWorld}

theorem length_le_of_nodup {l : List Nat} {n : Nat} (nodup : l.Nodup) (below : ∀ x ∈ l, x < n) :
    l.length ≤ n := by
  have subset : l ⊆ List.range n := fun x hx => List.mem_range.mpr (below x hx)
  simpa using (nodup.subperm subset).length_le

theorem hostFrames_lt : hostFrames < wordSize := by decide

theorem PageWorld.Inv.length_mdlList (inv : w.Inv) (live : w.Live) :
    w.osdep.mdlList.length ≤ hostFrames := by
  have first : ∀ m ∈ w.osdep.mdlList, m.mdl.headD 0 ∈ m.mdl := by
    intro m hm
    obtain ⟨pfn, hpfn, -⟩ := live m hm
    cases frames : m.mdl with
    | nil => simp [frames] at hpfn
    | cons x xs => exact List.mem_cons_self
  have nodup : (w.osdep.mdlList.map fun m => m.mdl.headD 0).Nodup := by
    apply List.Nodup.map_on _ inv.mdlNodup
    intro m hm m' hm' same
    exact inv.bucket_eq hm hm' (first m hm) (same ▸ first m' hm')
  have below : ∀ x ∈ w.osdep.mdlList.map (fun m => m.mdl.headD 0), x < hostFrames := by
    intro x hx
    obtain ⟨m, hm, rfl⟩ := List.mem_map.mp hx
    apply inv.frames
    exact (inv.held _).mpr
      ⟨⟨_, .mdl m⟩, .inl ⟨m, hm, mem_pfnPtrs.mpr ⟨first m hm, rfl⟩⟩, rfl⟩
  simpa using length_le_of_nodup nodup below

theorem PageWorld.Inv.countP_hash (inv : w.Inv) {pfn : Nat} (given : pfn ∈ w.osdep.held) (h : Nat) :
    (w.osdep.pagesHash h).countP (fun p => p.pfn = pfn) = if h = pfnHash pfn then 1 else 0 := by
  obtain ⟨p, owns, rfl⟩ := (inv.held pfn).mp given
  have same : ∀ q ∈ w.osdep.pagesHash h, (decide (q.pfn = p.pfn) = true ↔ (q == p) = true) := by
    intro q hq
    rw [decide_eq_true_iff, beq_iff_eq]
    exact ⟨inv.unique q p ((inv.hash h q).mp hq).1 owns, congrArg PfnPtr.pfn⟩
  rw [List.countP_congr same]
  split_ifs with here
  · exact List.count_eq_one_of_mem (inv.hashNodup h) ((inv.hash h p).mpr ⟨owns, here.symm⟩)
  · exact List.count_eq_zero_of_not_mem fun there => here ((inv.hash h p).mp there).2.symm

theorem PageWorld.Inv.sound (inv : w.Inv) (live : w.Live) : w.Sound where
  out := by
    refine ⟨inv.outNodup, fun pfn isOut => ?_⟩
    obtain ⟨p, owns, rfl⟩ := inv.outOwned pfn isOut
    exact (inv.held _).mpr ⟨p, owns, rfl⟩
  held := by
    intro pfn
    rw [inv.held]
    constructor
    · rintro ⟨p, ⟨m, hm, hp⟩ | hp, rfl⟩
      · exact .inl ⟨m, hm, (mem_pfnPtrs.mp hp).1⟩
      · exact .inr ⟨p, hp, rfl⟩
    · rintro (⟨m, hm, hpfn⟩ | ⟨p, hp, rfl⟩)
      · exact ⟨⟨pfn, .mdl m⟩, .inl ⟨m, hm, mem_pfnPtrs.mpr ⟨hpfn, rfl⟩⟩, rfl⟩
      · exact ⟨p, .inr hp, rfl⟩
  hash := fun _ given h => inv.countP_hash given h
  useCount := inv.useCount
  mdls := by
    have few := inv.length_mdlList live
    rw [inv.mdls]
    exact Nat.mod_eq_of_lt (Nat.lt_of_le_of_lt few hostFrames_lt)
  pages := by
    have given : ∀ x ∈ w.out, x < hostFrames := by
      intro x hx
      obtain ⟨p, owns, rfl⟩ := inv.outOwned x hx
      exact inv.frames _ ((inv.held _).mpr ⟨p, owns, rfl⟩)
    have few := length_le_of_nodup inv.outNodup given
    have le := @List.countP_le_length _ (fun pfn => decide (w.osdep.IsMdlFrame pfn)) w.out
    rw [inv.pages]
    exact Nat.mod_eq_of_lt (Nat.lt_of_le_of_lt (Nat.le_trans le few) hostFrames_lt)
  live := live
  single := fun p hp => (inv.mapped p hp).2
  unused := by
    intro p hp
    obtain ⟨⟨m, hm, hpm⟩, notOut⟩ := (inv.unused p).mp hp
    exact ⟨⟨m, hm, (mem_pfnPtrs.mp hpm).1⟩, notOut⟩
  corrupt := inv.corrupt

/-- A call keeps the books and serves its caller. -/
theorem PageRequest.step_spec (inv : w.Inv) (live : w.Live) {r : PageRequest}
    (valid : r.Valid w) : (r.step w).Inv ∧ (r.step w).Live ∧ r.Served w := by
  cases r with
  | get host =>
    rcases coOsGetPage_spec inv live valid with ⟨pfn, o', result, spec⟩ | ⟨rc, result⟩
    · have step : PageRequest.step (.get host) w = ⟨o', pfn :: w.out⟩ := by
        simp only [PageRequest.step, result]
      refine ⟨step ▸ spec.inv, step ▸ spec.live, ?_, ?_, ?_⟩
      · intro host' pfn' same ok
        injection same with same
        subst same
        rw [result] at ok
        injection ok with same
        subst same
        exact ⟨spec.new, step ▸ spec.given⟩
      · intro p hp
        have held : p.pfn ∈ w.osdep.held := (inv.held _).mpr ⟨p, .inr hp, rfl⟩
        rw [step]
        exact ⟨fun gone => absurd (spec.held _ held) gone, fun same => by contradiction⟩
      · intro m hm
        obtain ⟨x, hx, isOut⟩ := live m hm
        rw [step]
        refine ⟨fun gone => absurd (spec.mdls m hm) gone, fun allBack => ?_⟩
        exact absurd (List.mem_cons_of_mem _ isOut) (allBack x hx)
    · have step : PageRequest.step (.get host) w = w := by
        simp only [PageRequest.step, result]
      refine ⟨step.symm ▸ inv, step.symm ▸ live, ?_, ?_, ?_⟩
      · intro host' pfn' same ok
        injection same with same
        subst same
        rw [result] at ok
        contradiction
      · intro p hp
        have held : p.pfn ∈ w.osdep.held := (inv.held _).mpr ⟨p, .inr hp, rfl⟩
        rw [step]
        exact ⟨fun gone => absurd held gone, fun same => by contradiction⟩
      · intro m hm
        obtain ⟨x, hx, isOut⟩ := live m hm
        rw [step]
        exact ⟨fun gone => absurd hm gone, fun allBack => absurd isOut (allBack x hx)⟩
  | put pfn =>
    have spec := coOsPutPage_spec inv live valid
    refine ⟨spec.inv, spec.live, ⟨fun _ _ same => ?_, ?_, spec.buckets⟩⟩
    · contradiction
    intro p hp
    refine (spec.singles p hp).trans ?_
    rw [PageRequest.put.injEq]
    exact eq_comm

theorem boot_inv : PageWorld.boot.Inv := by
  constructor <;> simp [PageWorld.boot, PageAllocator.Owns]

/-- The books of the page allocator hold in every sequence of calls. -/
theorem pageAllocator_sound (requests : List PageRequest)
    (valid : RunOk PageRequest.step PageRequest.Valid requests .boot) :
    (run PageRequest.step requests .boot).Sound ∧
      ∀ r : PageRequest, r.Valid (run PageRequest.step requests .boot) →
        r.Served (run PageRequest.step requests .boot) := by
  have preserves : ∀ (w : PageWorld) (r : PageRequest), w.Inv ∧ w.Live → r.Valid w →
      (r.step w).Inv ∧ (r.step w).Live := by
    rintro w r ⟨inv, live⟩ ok
    exact ⟨(PageRequest.step_spec inv live ok).1, (PageRequest.step_spec inv live ok).2.1⟩
  have start : PageWorld.boot.Inv ∧ PageWorld.boot.Live :=
    ⟨boot_inv, fun m hm => absurd hm (List.not_mem_nil)⟩
  obtain ⟨inv, live⟩ := run_invariant preserves start valid
  exact ⟨inv.sound live, fun r ok => (PageRequest.step_spec inv live ok).2.2⟩

end Runs

/-- Windows with one MDL and one single page to give. -/
def onePageHost : PageHost := ⟨true, true, some (List.range' 0x2000 64), true, some (0, 0x3000)⟩

/-- A bucket is opened, a second page is taken from it, and both come back. -/
def bucketRun : List PageRequest :=
  [.get onePageHost, .get ⟨false, false, none, false, none⟩, .put 0x203e, .put 0x203f]

theorem pageAllocator_sound_bucketRun :
    (run PageRequest.step bucketRun .boot).Sound ∧
      ∀ r : PageRequest, r.Valid (run PageRequest.step bucketRun .boot) →
        r.Served (run PageRequest.step bucketRun .boot) :=
  pageAllocator_sound bucketRun (by decide +kernel)

end CoLinux
