import CoLinux.Winnt.PageAlloc
import Mathlib.Data.List.Nodup
import Mathlib.Tactic.Set
import Mathlib.Tactic.SplitIfs

/-!
# The books of the page allocator

Which frames are out, where the entries of the frames stand, and what the counters say; and that
every operation of the allocator keeps them.
-/

namespace CoLinux

theorem ulongPred_succ (n : Nat) : ulongPred ((n + 1) % wordSize) = n % wordSize := by
  unfold ulongPred wordSize
  split_ifs <;> omega

theorem mem_pfnPtrs {m : MdlPtr} {p : PfnPtr} :
    p ∈ m.pfnPtrs ↔ p.pfn ∈ m.mdl ∧ p.owner = .mdl m := by
  unfold MdlPtr.pfnPtrs
  rw [List.mem_map]
  constructor
  · rintro ⟨pfn, hpfn, rfl⟩
    exact ⟨hpfn, rfl⟩
  · rintro ⟨hpfn, owner⟩
    refine ⟨p.pfn, hpfn, ?_⟩
    rw [← owner]

theorem nodup_pfnPtrs {m : MdlPtr} (h : m.mdl.Nodup) : m.pfnPtrs.Nodup := by
  apply h.map
  intro pfn pfn' same
  exact congrArg PfnPtr.pfn same

namespace PageAllocator

/-- The page is one of a live bucket, or a single one. -/
def Owns (o : PageAllocator) (p : PfnPtr) : Prop :=
  (∃ m ∈ o.mdlList, p ∈ m.pfnPtrs) ∨ p ∈ o.mappedAllocatedList

/-- The frame is one of a live bucket. -/
def IsMdlFrame (o : PageAllocator) (pfn : Nat) : Prop := ∃ m ∈ o.mdlList, pfn ∈ m.mdl

instance (o : PageAllocator) (pfn : Nat) : Decidable (o.IsMdlFrame pfn) :=
  inferInstanceAs (Decidable (∃ m ∈ o.mdlList, pfn ∈ m.mdl))

/-! ## The two loops -/

theorem addPages_eq (ps : List PfnPtr) (o : PageAllocator) :
    o.addPages ps = { o with
      pagesUnused := ps.reverse ++ o.pagesUnused
      pagesHash := fun h => (ps.filter fun p => pfnHash p.pfn = h).reverse ++ o.pagesHash h } := by
  induction ps generalizing o with
  | nil => simp [addPages]
  | cons p ps ih =>
    rw [addPages, List.foldl_cons, ← addPages, ih, hashNode]
    congr 1
    · funext h
      by_cases here : pfnHash p.pfn = h
      · subst here
        simp
      · simp [here, Function.update_of_ne (Ne.symm here)]
    · simp

/-- Entries that are on both of their lists are taken from them. -/
theorem delPages_eq {ps : List PfnPtr} {o : PageAllocator} (nodup : ps.Nodup)
    (unused : ∀ p ∈ ps, p ∈ o.pagesUnused) (hashed : ∀ p ∈ ps, p ∈ o.pagesHash (pfnHash p.pfn)) :
    o.delPages ps = { o with
      pagesUnused := o.pagesUnused.diff ps
      pagesHash := fun h => (o.pagesHash h).diff ps } := by
  induction ps generalizing o with
  | nil => simp [delPages]
  | cons p ps ih =>
    obtain ⟨new, nodup⟩ := List.nodup_cons.mp nodup
    have there : ∀ q ∈ ps, q ≠ p := fun q hq same => new (same ▸ hq)
    rw [delPages, List.foldl_cons, ← delPages, ih nodup]
    · simp [delUnused, delNode, unused p List.mem_cons_self, hashed p List.mem_cons_self,
        List.diff_cons]
    · intro q hq
      exact (List.mem_erase_of_ne (there q hq)).mpr (unused q (List.mem_cons_of_mem _ hq))
    · intro q hq
      exact (List.mem_erase_of_ne (there q hq)).mpr (hashed q (List.mem_cons_of_mem _ hq))

end PageAllocator

/-! ## Counting the frames that are out -/

theorem countP_cons_mem {l out : List Nat} {pfn : Nat} (nodup : l.Nodup) (inside : pfn ∈ l)
    (new : pfn ∉ out) :
    l.countP (fun x => x ∈ pfn :: out) = l.countP (fun x => x ∈ out) + 1 := by
  induction l with
  | nil => contradiction
  | cons x l ih =>
    obtain ⟨notThere, nodup⟩ := List.nodup_cons.mp nodup
    rw [List.countP_cons, List.countP_cons]
    rcases List.mem_cons.mp inside with rfl | there
    · have others : l.countP (fun y => y ∈ pfn :: out) = l.countP (fun y => y ∈ out) := by
        apply List.countP_congr
        intro y hy
        have : y ≠ pfn := fun same => notThere (same ▸ hy)
        simp [this]
      rw [others, if_pos (by simp), if_neg (by simpa using new)]
    · have other : x ≠ pfn := fun same => notThere (same ▸ there)
      rw [ih nodup there]
      simp only [List.mem_cons, other, false_or]
      omega

theorem countP_cons_not_mem {l out : List Nat} {pfn : Nat} (outside : pfn ∉ l) :
    l.countP (fun x => x ∈ pfn :: out) = l.countP (fun x => x ∈ out) := by
  apply List.countP_congr
  intro x hx
  have : x ≠ pfn := fun same => outside (same ▸ hx)
  simp [this]

/-- The books balance. -/
structure PageWorld.Inv (w : PageWorld) : Prop where
  outNodup : w.out.Nodup
  outOwned : ∀ pfn ∈ w.out, ∃ p, w.osdep.Owns p ∧ p.pfn = pfn
  unique : ∀ p q, w.osdep.Owns p → w.osdep.Owns q → p.pfn = q.pfn → p = q
  mdlNodup : w.osdep.mdlList.Nodup
  framesNodup : ∀ m ∈ w.osdep.mdlList, m.mdl.Nodup
  mappedNodup : w.osdep.mappedAllocatedList.Nodup
  mapped : ∀ p ∈ w.osdep.mappedAllocatedList, (∃ page, p.owner = .page page) ∧ p.pfn ∈ w.out
  hash : ∀ h p, p ∈ w.osdep.pagesHash h ↔ w.osdep.Owns p ∧ pfnHash p.pfn = h
  hashNodup : ∀ h, (w.osdep.pagesHash h).Nodup
  unused : ∀ p, p ∈ w.osdep.pagesUnused ↔
    (∃ m ∈ w.osdep.mdlList, p ∈ m.pfnPtrs) ∧ p.pfn ∉ w.out
  unusedNodup : w.osdep.pagesUnused.Nodup
  useCount : ∀ m ∈ w.osdep.mdlList, w.osdep.useCount m = m.mdl.countP fun pfn => pfn ∈ w.out
  mdls : w.osdep.mdlsAllocated = w.osdep.mdlList.length % wordSize
  pages : w.osdep.pagesAllocated = w.out.countP (fun pfn => w.osdep.IsMdlFrame pfn) % wordSize
  held : ∀ pfn, pfn ∈ w.osdep.held ↔ ∃ p, w.osdep.Owns p ∧ p.pfn = pfn
  frames : ∀ pfn ∈ w.osdep.held, pfn < hostFrames
  corrupt : w.osdep.corrupt = false

/-- Some page of every bucket is out. -/
def PageWorld.Live (w : PageWorld) : Prop := ∀ m ∈ w.osdep.mdlList, ∃ pfn ∈ m.mdl, pfn ∈ w.out

section Operations

variable {o : PageAllocator} {out : List Nat}

/-- A frame lies in one bucket. -/
theorem PageWorld.Inv.bucket_eq {w : PageWorld} (inv : w.Inv) {m m' : MdlPtr} {pfn : Nat}
    (hm : m ∈ w.osdep.mdlList) (hm' : m' ∈ w.osdep.mdlList) (h : pfn ∈ m.mdl) (h' : pfn ∈ m'.mdl) :
    m = m' := by
  have same := inv.unique ⟨pfn, .mdl m⟩ ⟨pfn, .mdl m'⟩ (.inl ⟨m, hm, mem_pfnPtrs.mpr ⟨h, rfl⟩⟩)
    (.inl ⟨m', hm', mem_pfnPtrs.mpr ⟨h', rfl⟩⟩) rfl
  injection same with _ owner
  injection owner

/-- A frame of a bucket is no single page. -/
theorem PageWorld.Inv.mdl_of_owns {w : PageWorld} (inv : w.Inv) {p : PfnPtr} {m : MdlPtr}
    (owns : w.osdep.Owns p) (owner : p.owner = .mdl m) :
    m ∈ w.osdep.mdlList ∧ p.pfn ∈ m.mdl := by
  rcases owns with ⟨m', hm', hp⟩ | hp
  · obtain ⟨inside, owner'⟩ := mem_pfnPtrs.mp hp
    rw [owner] at owner'
    injection owner' with same
    subst same
    exact ⟨hm', inside⟩
  · obtain ⟨page, single⟩ := (inv.mapped p hp).1
    rw [owner] at single
    contradiction

theorem PageWorld.Inv.mapped_of_owns {w : PageWorld} {p : PfnPtr} {page : Nat}
    (owns : w.osdep.Owns p) (owner : p.owner = .page page) :
    p ∈ w.osdep.mappedAllocatedList := by
  rcases owns with ⟨m, -, hp⟩ | hp
  · have mdl := (mem_pfnPtrs.mp hp).2
    rw [owner] at mdl
    contradiction
  · exact hp

/-- `co_os_get_unused_mdl_page` hands out the head of `pages_unused`. -/
theorem getUnusedMdlPage_eq (inv : PageWorld.Inv ⟨o, out⟩) {p : PfnPtr} {rest : List PfnPtr}
    (head : o.pagesUnused = p :: rest) :
    ∃ m ∈ o.mdlList, p.pfn ∈ m.mdl ∧ p.owner = .mdl m ∧
      o.getUnusedMdlPage = (.ok p.pfn, { o with
        useCount := Function.update o.useCount m (o.useCount m + 1)
        pagesUnused := rest
        pagesAllocated := (o.pagesAllocated + 1) % wordSize }) := by
  have there : p ∈ o.pagesUnused := by simp [head]
  obtain ⟨⟨m, hm, hp⟩, -⟩ := (inv.unused p).mp there
  obtain ⟨inside, owner⟩ := mem_pfnPtrs.mp hp
  refine ⟨m, hm, inside, owner, ?_⟩
  unfold PageAllocator.getUnusedMdlPage
  rw [head]
  dsimp only
  rw [owner]
  simp [PageAllocator.delUnused]

theorem PageWorld.Inv.get (inv : PageWorld.Inv ⟨o, out⟩) {p : PfnPtr} {rest : List PfnPtr}
    (head : o.pagesUnused = p :: rest) :
    ∃ o', o.getUnusedMdlPage = (.ok p.pfn, o') ∧ o'.mdlList = o.mdlList ∧
      o'.mappedAllocatedList = o.mappedAllocatedList ∧ o'.held = o.held ∧
      PageWorld.Inv ⟨o', p.pfn :: out⟩ := by
  obtain ⟨m, hm, inside, owner, result⟩ := getUnusedMdlPage_eq inv head
  have there : p ∈ o.pagesUnused := by simp [head]
  have new : p.pfn ∉ out := ((inv.unused p).mp there).2
  have owns : o.Owns p := .inl ⟨m, hm, mem_pfnPtrs.mpr ⟨inside, owner⟩⟩
  have nodup : (p :: rest).Nodup := head ▸ inv.unusedNodup
  refine ⟨_, result, rfl, rfl, rfl, ?_⟩
  exact {
    outNodup := List.nodup_cons.mpr ⟨new, inv.outNodup⟩
    outOwned := by
      intro pfn hpfn
      rcases List.mem_cons.mp hpfn with rfl | hpfn
      · exact ⟨p, owns, rfl⟩
      · exact inv.outOwned pfn hpfn
    unique := inv.unique
    mdlNodup := inv.mdlNodup
    framesNodup := inv.framesNodup
    mappedNodup := inv.mappedNodup
    mapped := fun q hq => ⟨(inv.mapped q hq).1, List.mem_cons_of_mem _ (inv.mapped q hq).2⟩
    hash := inv.hash
    hashNodup := inv.hashNodup
    unused := by
      intro q
      have before := inv.unused q
      dsimp only at before ⊢
      rw [head, List.mem_cons] at before
      constructor
      · intro hq
        obtain ⟨bucket, notOut⟩ := before.mp (.inr hq)
        refine ⟨bucket, ?_⟩
        intro same
        rcases List.mem_cons.mp same with same | isOut
        · have : q = p := inv.unique q p (.inl bucket) owns same
          exact (List.nodup_cons.mp nodup).1 (this ▸ hq)
        · exact notOut isOut
      · rintro ⟨bucket, notOut⟩
        rw [List.mem_cons, not_or] at notOut
        rcases before.mpr ⟨bucket, notOut.2⟩ with rfl | hq
        · exact absurd rfl notOut.1
        · exact hq
    unusedNodup := (List.nodup_cons.mp nodup).2
    useCount := by
      intro m' hm'
      have count := inv.useCount m' hm'
      dsimp only at count ⊢
      by_cases same : m' = m
      · subst same
        rw [Function.update_self, count, countP_cons_mem (inv.framesNodup m' hm') inside new]
        rfl
      · rw [Function.update_of_ne same, count, countP_cons_not_mem]
        intro other
        exact same (inv.bucket_eq hm' hm other inside)
    mdls := inv.mdls
    pages := by
      have count := inv.pages
      dsimp only at count ⊢
      have frame : o.IsMdlFrame p.pfn := ⟨m, hm, inside⟩
      rw [List.countP_cons_of_pos, count, Nat.mod_add_mod]
      · rfl
      · exact decide_eq_true frame
    held := inv.held
    frames := inv.frames
    corrupt := inv.corrupt }

/-- A single page that Windows gives is out at once. -/
theorem PageWorld.Inv.newMapped (inv : PageWorld.Inv ⟨o, out⟩) {page pfn : Nat}
    (small : pfn < hostFrames) (fresh : pfn ∉ o.held) :
    PageWorld.Inv ⟨{ o with
      held := pfn :: o.held
      pagesHash := Function.update o.pagesHash (pfnHash pfn)
        (⟨pfn, .page page⟩ :: o.pagesHash (pfnHash pfn))
      mappedAllocatedList := ⟨pfn, .page page⟩ :: o.mappedAllocatedList }, pfn :: out⟩ := by
  set p : PfnPtr := ⟨pfn, .page page⟩ with isP
  have notOwned : ∀ q, o.Owns q → q.pfn ≠ pfn := fun q owns same =>
    fresh ((inv.held pfn).mpr ⟨q, owns, same⟩)
  have notOut : pfn ∉ out := fun there => by
    obtain ⟨q, owns, same⟩ := inv.outOwned pfn there
    exact notOwned q owns same
  have other : ∀ m ∈ o.mdlList, pfn ∉ m.mdl := fun m hm there =>
    notOwned ⟨pfn, .mdl m⟩ (.inl ⟨m, hm, mem_pfnPtrs.mpr ⟨there, rfl⟩⟩) rfl
  have split : ∀ q, ((∃ m ∈ o.mdlList, q ∈ m.pfnPtrs) ∨ q ∈ p :: o.mappedAllocatedList) ↔
      q = p ∨ o.Owns q := by
    intro q
    rw [List.mem_cons, PageAllocator.Owns]
    exact or_left_comm
  exact {
    outNodup := List.nodup_cons.mpr ⟨notOut, inv.outNodup⟩
    outOwned := by
      intro x hx
      rcases List.mem_cons.mp hx with rfl | hx
      · exact ⟨p, (split p).mpr (.inl rfl), rfl⟩
      · obtain ⟨q, owns, same⟩ := inv.outOwned x hx
        exact ⟨q, (split q).mpr (.inr owns), same⟩
    unique := by
      intro q r hq hr same
      rcases (split q).mp hq with rfl | hq <;> rcases (split r).mp hr with rfl | hr
      · rfl
      · exact absurd same.symm (notOwned r hr)
      · exact absurd same (notOwned q hq)
      · exact inv.unique q r hq hr same
    mdlNodup := inv.mdlNodup
    framesNodup := inv.framesNodup
    mappedNodup := by
      refine List.nodup_cons.mpr ⟨fun there => ?_, inv.mappedNodup⟩
      exact notOwned p (.inr there) rfl
    mapped := by
      intro q hq
      rcases List.mem_cons.mp hq with rfl | hq
      · exact ⟨⟨page, rfl⟩, List.mem_cons_self⟩
      · exact ⟨(inv.mapped q hq).1, List.mem_cons_of_mem _ (inv.mapped q hq).2⟩
    hash := by
      intro h q
      have before := inv.hash h q
      refine Iff.trans ?_ (and_congr_left' (split q).symm)
      dsimp only at before ⊢
      by_cases here : h = pfnHash pfn
      · subst here
        rw [Function.update_self, List.mem_cons, before]
        constructor
        · rintro (rfl | ⟨owns, place⟩)
          · exact ⟨.inl rfl, rfl⟩
          · exact ⟨.inr owns, place⟩
        · rintro ⟨rfl | owns, place⟩
          · exact .inl rfl
          · exact .inr ⟨owns, place⟩
      · rw [Function.update_of_ne here, before]
        constructor
        · rintro ⟨owns, place⟩
          exact ⟨.inr owns, place⟩
        · rintro ⟨rfl | owns, place⟩
          · exact absurd place.symm here
          · exact ⟨owns, place⟩
    hashNodup := by
      intro h
      dsimp only
      by_cases here : h = pfnHash pfn
      · subst here
        rw [Function.update_self]
        refine List.nodup_cons.mpr ⟨fun there => ?_, inv.hashNodup _⟩
        exact notOwned p ((inv.hash _ p).mp there).1 rfl
      · rw [Function.update_of_ne here]
        exact inv.hashNodup h
    unused := by
      intro q
      refine (inv.unused q).trans (and_congr_right ?_)
      rintro ⟨m, hm, hq⟩
      have : q.pfn ≠ pfn := notOwned q (.inl ⟨m, hm, hq⟩)
      simp [this]
    unusedNodup := inv.unusedNodup
    useCount := by
      intro m hm
      rw [countP_cons_not_mem (other m hm)]
      exact inv.useCount m hm
    mdls := inv.mdls
    pages := by
      refine inv.pages.trans (congrArg (· % wordSize) ?_)
      rw [List.countP_cons_of_neg]
      · rfl
      · rw [decide_eq_true_iff]
        rintro ⟨m, hm, there⟩
        exact other m hm there
    held := by
      intro x
      refine List.mem_cons.trans ?_
      rw [inv.held x]
      constructor
      · rintro (rfl | ⟨q, owns, same⟩)
        · exact ⟨p, (split p).mpr (.inl rfl), rfl⟩
        · exact ⟨q, (split q).mpr (.inr owns), same⟩
      · rintro ⟨q, owns, same⟩
        rcases (split q).mp owns with rfl | owns
        · exact .inl same.symm
        · exact .inr ⟨q, owns, same⟩
    frames := by
      intro x hx
      rcases List.mem_cons.mp hx with rfl | hx
      · exact small
      · exact inv.frames x hx
    corrupt := inv.corrupt }

/-- A single page that is put goes back to Windows. -/
theorem PageWorld.Inv.freeMapped (inv : PageWorld.Inv ⟨o, out⟩) {p : PfnPtr}
    (there : p ∈ o.mappedAllocatedList) :
    o.freeMappedAllocatedPage p = { o with
        mappedAllocatedList := o.mappedAllocatedList.erase p
        pagesHash := fun h => (o.pagesHash h).erase p
        held := o.held.filter fun pfn => pfn ∉ [p.pfn] } ∧
      PageWorld.Inv ⟨o.freeMappedAllocatedPage p, out.erase p.pfn⟩ := by
  have owns : o.Owns p := .inr there
  have hashed : p ∈ o.pagesHash (pfnHash p.pfn) := (inv.hash _ p).mpr ⟨owns, rfl⟩
  have held : p.pfn ∈ o.held := (inv.held _).mpr ⟨p, owns, rfl⟩
  have result : o.freeMappedAllocatedPage p = { o with
      mappedAllocatedList := o.mappedAllocatedList.erase p
      pagesHash := fun h => (o.pagesHash h).erase p
      held := o.held.filter fun pfn => pfn ∉ [p.pfn] } := by
    simp [PageAllocator.freeMappedAllocatedPage, PageAllocator.delNode, PageAllocator.release,
      there, hashed, held]
  refine ⟨result, ?_⟩
  rw [result]
  obtain ⟨page, single⟩ := (inv.mapped p there).1
  have notMdl : ∀ m : MdlPtr, p ∉ m.pfnPtrs := by
    intro m hp
    have owner := (mem_pfnPtrs.mp hp).2
    rw [single] at owner
    contradiction
  have other : ∀ m ∈ o.mdlList, p.pfn ∉ m.mdl := by
    intro m hm hpfn
    have same := inv.unique p ⟨p.pfn, .mdl m⟩ owns
      (.inl ⟨m, hm, mem_pfnPtrs.mpr ⟨hpfn, rfl⟩⟩) rfl
    exact notMdl m (same ▸ mem_pfnPtrs.mpr ⟨hpfn, rfl⟩)
  have split : ∀ q, ((∃ m ∈ o.mdlList, q ∈ m.pfnPtrs) ∨ q ∈ o.mappedAllocatedList.erase p) ↔
      q ≠ p ∧ o.Owns q := by
    intro q
    rw [inv.mappedNodup.mem_erase_iff]
    constructor
    · rintro (⟨m, hm, hq⟩ | ⟨different, hq⟩)
      · exact ⟨fun same => notMdl m (same ▸ hq), .inl ⟨m, hm, hq⟩⟩
      · exact ⟨different, .inr hq⟩
    · rintro ⟨different, bucket | hq⟩
      · exact .inl bucket
      · exact .inr ⟨different, hq⟩
  have ne_iff : ∀ q, o.Owns q → (q ≠ p ↔ q.pfn ≠ p.pfn) := fun q hq =>
    not_congr ⟨congrArg PfnPtr.pfn, inv.unique q p hq owns⟩
  have isOut : p.pfn ∈ out := (inv.mapped p there).2
  have outs : ∀ x, x ∈ out.erase p.pfn ↔ x ≠ p.pfn ∧ x ∈ out := fun x =>
    inv.outNodup.mem_erase_iff
  exact {
    outNodup := inv.outNodup.erase _
    outOwned := by
      intro x hx
      obtain ⟨different, hx⟩ := (outs x).mp hx
      obtain ⟨q, hq, rfl⟩ := inv.outOwned x hx
      exact ⟨q, (split q).mpr ⟨(ne_iff q hq).mpr different, hq⟩, rfl⟩
    unique := fun q r hq hr => inv.unique q r ((split q).mp hq).2 ((split r).mp hr).2
    mdlNodup := inv.mdlNodup
    framesNodup := inv.framesNodup
    mappedNodup := inv.mappedNodup.erase _
    mapped := by
      intro q hq
      obtain ⟨different, hq⟩ := inv.mappedNodup.mem_erase_iff.mp hq
      refine ⟨(inv.mapped q hq).1, (outs _).mpr ⟨?_, (inv.mapped q hq).2⟩⟩
      exact (ne_iff q (.inr hq)).mp different
    hash := by
      intro h q
      refine (inv.hashNodup h).mem_erase_iff.trans ?_
      rw [inv.hash h q]
      refine Iff.trans ?_ (and_congr_left' (split q).symm)
      exact and_assoc.symm
    hashNodup := fun h => (inv.hashNodup h).erase _
    unused := by
      intro q
      refine (inv.unused q).trans (and_congr_right ?_)
      rintro ⟨m, hm, hq⟩
      rw [not_iff_not, outs]
      have : q.pfn ≠ p.pfn := fun same => other m hm (same ▸ (mem_pfnPtrs.mp hq).1)
      exact (and_iff_right this).symm
    unusedNodup := inv.unusedNodup
    useCount := by
      intro m hm
      refine (inv.useCount m hm).trans (congrArg Nat.cast (List.countP_congr ?_))
      intro x hx
      have : x ≠ p.pfn := fun same => other m hm (same ▸ hx)
      simp [outs, this]
    mdls := inv.mdls
    pages := by
      have none : ¬o.IsMdlFrame p.pfn := fun ⟨m, hm, hpfn⟩ => other m hm hpfn
      refine inv.pages.trans (congrArg (· % wordSize) ?_)
      have perm := (List.perm_cons_erase isOut).countP_eq fun x => decide (o.IsMdlFrame x)
      refine perm.trans (List.countP_cons_of_neg ?_)
      simpa using none
    held := by
      intro x
      refine List.mem_filter.trans ?_
      rw [inv.held x]
      constructor
      · rintro ⟨⟨q, hq, rfl⟩, different⟩
        refine ⟨q, (split q).mpr ⟨(ne_iff q hq).mpr ?_, hq⟩, rfl⟩
        simpa using different
      · rintro ⟨q, hq, rfl⟩
        obtain ⟨different, hq⟩ := (split q).mp hq
        refine ⟨⟨q, hq, rfl⟩, ?_⟩
        simpa using (ne_iff q hq).mp different
    frames := fun x hx => inv.frames x (List.mem_filter.mp hx).1
    corrupt := inv.corrupt }

/-- An MDL page that is put is unused again. -/
theorem PageWorld.Inv.put (inv : PageWorld.Inv ⟨o, out⟩) {p : PfnPtr} {m : MdlPtr}
    (owns : o.Owns p) (owner : p.owner = .mdl m) (isOut : p.pfn ∈ out) :
    PageWorld.Inv ⟨{ o with
      useCount := Function.update o.useCount m (o.useCount m - 1)
      pagesUnused := p :: o.pagesUnused
      pagesAllocated := ulongPred o.pagesAllocated }, out.erase p.pfn⟩ := by
  obtain ⟨hm, inside⟩ := inv.mdl_of_owns owns owner
  have outs : ∀ x, x ∈ out.erase p.pfn ↔ x ≠ p.pfn ∧ x ∈ out := fun x =>
    inv.outNodup.mem_erase_iff
  have back : p.pfn ∉ out.erase p.pfn := fun there => ((outs _).mp there).1 rfl
  have counts : ∀ l : List Nat, l.countP (fun x => x ∈ out) =
      l.countP fun x => x ∈ p.pfn :: out.erase p.pfn := by
    intro l
    apply List.countP_congr
    intro x _
    simp only [decide_eq_true_iff, List.mem_cons, outs]
    constructor
    · intro there
      by_cases same : x = p.pfn
      · exact .inl same
      · exact .inr ⟨same, there⟩
    · rintro (rfl | ⟨-, there⟩)
      · exact isOut
      · exact there
  exact {
    outNodup := inv.outNodup.erase _
    outOwned := fun x hx => inv.outOwned x ((outs x).mp hx).2
    unique := inv.unique
    mdlNodup := inv.mdlNodup
    framesNodup := inv.framesNodup
    mappedNodup := inv.mappedNodup
    mapped := by
      intro q hq
      refine ⟨(inv.mapped q hq).1, (outs _).mpr ⟨?_, (inv.mapped q hq).2⟩⟩
      intro same
      obtain ⟨page, single⟩ := (inv.mapped q hq).1
      rw [inv.unique q p (.inr hq) owns same, owner] at single
      contradiction
    hash := inv.hash
    hashNodup := inv.hashNodup
    unused := by
      intro q
      refine List.mem_cons.trans ?_
      rw [inv.unused q]
      constructor
      · rintro (rfl | ⟨bucket, notOut⟩)
        · exact ⟨⟨m, hm, mem_pfnPtrs.mpr ⟨inside, owner⟩⟩, back⟩
        · exact ⟨bucket, fun there => notOut ((outs _).mp there).2⟩
      · rintro ⟨bucket, notOut⟩
        by_cases same : q = p
        · exact .inl same
        · refine .inr ⟨bucket, fun there => notOut ((outs _).mpr ⟨?_, there⟩)⟩
          exact fun frame => same (inv.unique q p (.inl bucket) owns frame)
    unusedNodup := by
      refine List.nodup_cons.mpr ⟨fun there => ?_, inv.unusedNodup⟩
      exact ((inv.unused p).mp there).2 isOut
    useCount := by
      intro m' hm'
      have count := inv.useCount m' hm'
      dsimp only at count ⊢
      rw [counts] at count
      by_cases same : m' = m
      · subst same
        rw [countP_cons_mem (inv.framesNodup m' hm') inside back] at count
        rw [Function.update_self, count]
        omega
      · rw [countP_cons_not_mem] at count
        · rw [Function.update_of_ne same, count]
        · intro other
          exact same (inv.bucket_eq hm' hm other inside)
    mdls := inv.mdls
    pages := by
      have count := inv.pages
      dsimp only at count ⊢
      have frame : o.IsMdlFrame p.pfn := ⟨m, hm, inside⟩
      have perm := (List.perm_cons_erase isOut).countP_eq fun x => decide (o.IsMdlFrame x)
      have one := @List.countP_cons_of_pos _ (fun x => decide (o.IsMdlFrame x)) p.pfn
        (out.erase p.pfn) (decide_eq_true frame)
      rw [count, perm, one]
      exact ulongPred_succ _
    held := inv.held
    frames := inv.frames
    corrupt := inv.corrupt }

/-- A bucket without a page out is freed, with all its entries. -/
theorem PageWorld.Inv.free {n : Nat} (inv : PageWorld.Inv ⟨{ o with pagesAllocated := n }, out⟩)
    {m : MdlPtr} (hm : m ∈ o.mdlList) (none : ∀ pfn ∈ m.mdl, pfn ∉ out) :
    o.freeMdlBucket m = { o with
        pagesUnused := o.pagesUnused.diff m.pfnPtrs
        pagesHash := fun h => (o.pagesHash h).diff m.pfnPtrs
        held := o.held.filter fun pfn => pfn ∉ m.mdl
        mdlList := o.mdlList.erase m
        mdlsAllocated := ulongPred o.mdlsAllocated } ∧
      PageWorld.Inv ⟨{ o.freeMdlBucket m with pagesAllocated := n }, out⟩ := by
  have owned : ∀ p ∈ m.pfnPtrs, o.Owns p := fun p hp => .inl ⟨m, hm, hp⟩
  have unused : ∀ p ∈ m.pfnPtrs, p ∈ o.pagesUnused := fun p hp =>
    (inv.unused p).mpr ⟨⟨m, hm, hp⟩, none _ (mem_pfnPtrs.mp hp).1⟩
  have hashed : ∀ p ∈ m.pfnPtrs, p ∈ o.pagesHash (pfnHash p.pfn) := fun p hp =>
    (inv.hash _ p).mpr ⟨owned p hp, rfl⟩
  have held : ∀ pfn ∈ m.mdl, pfn ∈ o.held := fun pfn hpfn =>
    (inv.held pfn).mpr ⟨⟨pfn, .mdl m⟩, owned _ (mem_pfnPtrs.mpr ⟨hpfn, rfl⟩), rfl⟩
  have result : o.freeMdlBucket m = { o with
      pagesUnused := o.pagesUnused.diff m.pfnPtrs
      pagesHash := fun h => (o.pagesHash h).diff m.pfnPtrs
      held := o.held.filter fun pfn => pfn ∉ m.mdl
      mdlList := o.mdlList.erase m
      mdlsAllocated := ulongPred o.mdlsAllocated } := by
    rw [PageAllocator.freeMdlBucket,
      PageAllocator.delPages_eq (nodup_pfnPtrs (inv.framesNodup m hm)) unused hashed]
    have all : (m.mdl.any fun pfn => pfn ∉ o.held) = false := by simpa using held
    simp only [PageAllocator.freeMdlBucketNoLists, PageAllocator.release, all, Bool.or_false]
    simp [hm]
  refine ⟨result, ?_⟩
  rw [result]
  have split : ∀ q, ((∃ m' ∈ o.mdlList.erase m, q ∈ m'.pfnPtrs) ∨ q ∈ o.mappedAllocatedList) ↔
      o.Owns q ∧ q ∉ m.pfnPtrs := by
    intro q
    constructor
    · rintro (⟨m', hm', hq⟩ | hq)
      · obtain ⟨different, hm'⟩ := inv.mdlNodup.mem_erase_iff.mp hm'
        refine ⟨.inl ⟨m', hm', hq⟩, fun here => different ?_⟩
        exact inv.bucket_eq hm' hm (mem_pfnPtrs.mp hq).1 (mem_pfnPtrs.mp here).1
      · refine ⟨.inr hq, fun here => ?_⟩
        obtain ⟨page, single⟩ := (inv.mapped q hq).1
        rw [(mem_pfnPtrs.mp here).2] at single
        contradiction
    · rintro ⟨⟨m', hm', hq⟩ | hq, notHere⟩
      · refine .inl ⟨m', inv.mdlNodup.mem_erase_iff.mpr ⟨?_, hm'⟩, hq⟩
        exact fun same => notHere (same ▸ hq)
      · exact .inr hq
  have frame_iff : ∀ q, o.Owns q → (q ∈ m.pfnPtrs ↔ q.pfn ∈ m.mdl) := by
    intro q hq
    refine ⟨fun here => (mem_pfnPtrs.mp here).1, fun here => ?_⟩
    rw [inv.unique q ⟨q.pfn, .mdl m⟩ hq (owned _ (mem_pfnPtrs.mpr ⟨here, rfl⟩)) rfl]
    exact mem_pfnPtrs.mpr ⟨here, rfl⟩
  have subset : ∀ m' ∈ o.mdlList.erase m, m' ∈ o.mdlList := fun m' hm' => List.mem_of_mem_erase hm'
  exact {
    outNodup := inv.outNodup
    outOwned := by
      intro x hx
      obtain ⟨q, hq, rfl⟩ := inv.outOwned x hx
      exact ⟨q, (split q).mpr ⟨hq, fun here => none _ (mem_pfnPtrs.mp here).1 hx⟩, rfl⟩
    unique := fun q r hq hr => inv.unique q r ((split q).mp hq).1 ((split r).mp hr).1
    mdlNodup := inv.mdlNodup.erase _
    framesNodup := fun m' hm' => inv.framesNodup m' (subset m' hm')
    mappedNodup := inv.mappedNodup
    mapped := inv.mapped
    hash := by
      intro h q
      refine (inv.hashNodup h).mem_sdiff_iff.trans ?_
      rw [inv.hash h q]
      refine Iff.trans ?_ (and_congr_left' (split q).symm)
      exact and_right_comm
    hashNodup := fun h => (inv.hashNodup h).diff
    unused := by
      intro q
      refine inv.unusedNodup.mem_sdiff_iff.trans ?_
      rw [inv.unused q]
      constructor
      · rintro ⟨⟨bucket, notOut⟩, notHere⟩
        rcases (split q).mpr ⟨.inl bucket, notHere⟩ with bucket | single
        · exact ⟨bucket, notOut⟩
        · exact absurd (inv.mapped q single).2 notOut
      · rintro ⟨⟨m', hm', hq⟩, notOut⟩
        exact ⟨⟨⟨m', subset m' hm', hq⟩, notOut⟩, ((split q).mp (.inl ⟨m', hm', hq⟩)).2⟩
    unusedNodup := inv.unusedNodup.diff
    useCount := fun m' hm' => inv.useCount m' (subset m' hm')
    mdls := by
      have count := inv.mdls
      have length := List.length_erase_of_mem hm
      obtain ⟨n, some⟩ := Nat.exists_eq_add_of_lt (List.length_pos_of_mem hm)
      rw [Nat.zero_add] at some
      dsimp only at count ⊢
      rw [count, length, some]
      exact ulongPred_succ n
    pages := by
      refine inv.pages.trans (congrArg (· % wordSize) (List.countP_congr ?_))
      intro x hx
      simp only [decide_eq_true_iff]
      constructor
      · rintro ⟨m', hm', there⟩
        refine ⟨m', inv.mdlNodup.mem_erase_iff.mpr ⟨?_, hm'⟩, there⟩
        exact fun same => none x (same ▸ there) hx
      · rintro ⟨m', hm', there⟩
        exact ⟨m', subset m' hm', there⟩
    held := by
      intro x
      refine List.mem_filter.trans ?_
      rw [inv.held x]
      constructor
      · rintro ⟨⟨q, hq, rfl⟩, different⟩
        refine ⟨q, (split q).mpr ⟨hq, fun here => ?_⟩, rfl⟩
        simp [(mem_pfnPtrs.mp here).1] at different
      · rintro ⟨q, hq, rfl⟩
        obtain ⟨hq, notHere⟩ := (split q).mp hq
        refine ⟨⟨q, hq, rfl⟩, ?_⟩
        simpa using fun inside => notHere ((frame_iff q hq).mpr inside)
    frames := fun x hx => inv.frames x (List.mem_filter.mp hx).1
    corrupt := inv.corrupt }

/-- A new bucket, with none of its pages out yet. -/
theorem PageWorld.Inv.newBucket (inv : PageWorld.Inv ⟨o, out⟩) {frames : List Nat}
    (nodup : frames.Nodup) (fresh : ∀ pfn ∈ frames, pfn < hostFrames ∧ pfn ∉ o.held)
    (some : frames ≠ []) :
    PageWorld.Inv ⟨{ o with
      held := frames ++ o.held
      useCount := Function.update o.useCount ⟨frames⟩ 0
      mdlsAllocated := (o.mdlsAllocated + 1) % wordSize
      mdlList := ⟨frames⟩ :: o.mdlList
      pagesUnused := (MdlPtr.pfnPtrs ⟨frames⟩).reverse ++ o.pagesUnused
      pagesHash := fun h =>
        ((MdlPtr.pfnPtrs ⟨frames⟩).filter fun p => pfnHash p.pfn = h).reverse ++
          o.pagesHash h }, out⟩ := by
  set m : MdlPtr := ⟨frames⟩ with isM
  have notOwned : ∀ q, o.Owns q → q.pfn ∉ frames := fun q owns there =>
    (fresh _ there).2 ((inv.held q.pfn).mpr ⟨q, owns, rfl⟩)
  have notOut : ∀ pfn ∈ frames, pfn ∉ out := fun pfn hpfn there => by
    obtain ⟨q, owns, rfl⟩ := inv.outOwned pfn there
    exact notOwned q owns hpfn
  have disjoint : ∀ q, o.Owns q → q ∉ m.pfnPtrs := fun q owns there =>
    notOwned q owns (mem_pfnPtrs.mp there).1
  have new : m ∉ o.mdlList := by
    intro there
    obtain ⟨pfn, hpfn⟩ := List.exists_mem_of_ne_nil frames some
    have hp : (⟨pfn, .mdl m⟩ : PfnPtr) ∈ m.pfnPtrs := mem_pfnPtrs.mpr ⟨hpfn, rfl⟩
    exact disjoint _ (.inl ⟨m, there, hp⟩) hp
  have split : ∀ q, ((∃ m' ∈ m :: o.mdlList, q ∈ m'.pfnPtrs) ∨ q ∈ o.mappedAllocatedList) ↔
      q ∈ m.pfnPtrs ∨ o.Owns q := by
    intro q
    simp only [List.mem_cons, exists_eq_or_imp, PageAllocator.Owns, or_assoc]
  have uniqueNew : ∀ q r, q ∈ m.pfnPtrs → r ∈ m.pfnPtrs → q.pfn = r.pfn → q = r := by
    rintro ⟨_, _⟩ ⟨_, _⟩ hq hr same
    have owner := (mem_pfnPtrs.mp hq).2.trans (mem_pfnPtrs.mp hr).2.symm
    exact congrArg₂ PfnPtr.mk same owner
  exact {
    outNodup := inv.outNodup
    outOwned := by
      intro x hx
      obtain ⟨q, hq, same⟩ := inv.outOwned x hx
      exact ⟨q, (split q).mpr (.inr hq), same⟩
    unique := by
      intro q r hq hr same
      rcases (split q).mp hq with hq | hq <;> rcases (split r).mp hr with hr | hr
      · exact uniqueNew q r hq hr same
      · exact absurd (same ▸ (mem_pfnPtrs.mp hq).1) (notOwned r hr)
      · exact absurd (same ▸ (mem_pfnPtrs.mp hr).1) (notOwned q hq)
      · exact inv.unique q r hq hr same
    mdlNodup := List.nodup_cons.mpr ⟨new, inv.mdlNodup⟩
    framesNodup := by
      intro m' hm'
      rcases List.mem_cons.mp hm' with rfl | hm'
      · exact nodup
      · exact inv.framesNodup m' hm'
    mappedNodup := inv.mappedNodup
    mapped := inv.mapped
    hash := by
      intro h q
      refine Iff.trans ?_ (and_congr_left' (split q).symm)
      refine List.mem_append.trans ?_
      rw [inv.hash h q, List.mem_reverse, List.mem_filter, decide_eq_true_iff]
      exact or_and_right.symm
    hashNodup := by
      intro h
      refine List.nodup_append.mpr
        ⟨List.nodup_reverse.mpr ((nodup_pfnPtrs nodup).filter _), inv.hashNodup h, ?_⟩
      intro q hq r hr same
      have hq : q ∈ m.pfnPtrs := (List.mem_filter.mp (List.mem_reverse.mp hq)).1
      exact disjoint r ((inv.hash h r).mp hr).1 (same ▸ hq)
    unused := by
      intro q
      refine List.mem_append.trans ?_
      rw [inv.unused q, List.mem_reverse]
      simp only [List.mem_cons, exists_eq_or_imp]
      constructor
      · rintro (hq | ⟨bucket, unused⟩)
        · exact ⟨.inl hq, notOut _ (mem_pfnPtrs.mp hq).1⟩
        · exact ⟨.inr bucket, unused⟩
      · rintro ⟨hq | bucket, unused⟩
        · exact .inl hq
        · exact .inr ⟨bucket, unused⟩
    unusedNodup := by
      refine List.nodup_append.mpr
        ⟨List.nodup_reverse.mpr (nodup_pfnPtrs nodup), inv.unusedNodup, ?_⟩
      intro q hq r hr same
      exact disjoint r (.inl ((inv.unused r).mp hr).1) (same ▸ List.mem_reverse.mp hq)
    useCount := by
      intro m' hm'
      rcases List.mem_cons.mp hm' with rfl | hm'
      · have none : m.mdl.countP (fun pfn => pfn ∈ out) = 0 := by
          apply List.countP_eq_zero.mpr
          intro pfn hpfn
          simpa using notOut pfn hpfn
        exact (Function.update_self ..).trans (congrArg Nat.cast none).symm
      · have different : m' ≠ m := fun same => new (same ▸ hm')
        exact (Function.update_of_ne different ..).trans (inv.useCount m' hm')
    mdls := by
      have count := inv.mdls
      dsimp only at count ⊢
      rw [count, Nat.mod_add_mod, List.length_cons]
    pages := by
      refine inv.pages.trans (congrArg (· % wordSize) (List.countP_congr ?_))
      intro x hx
      rw [decide_eq_true_iff, decide_eq_true_iff]
      simp only [PageAllocator.IsMdlFrame, List.mem_cons, exists_eq_or_imp]
      exact (or_iff_right fun there => notOut x there hx).symm
    held := by
      intro x
      refine List.mem_append.trans ?_
      rw [inv.held x]
      constructor
      · rintro (hx | ⟨q, hq, same⟩)
        · exact ⟨⟨x, .mdl m⟩, (split _).mpr (.inl (mem_pfnPtrs.mpr ⟨hx, rfl⟩)), rfl⟩
        · exact ⟨q, (split q).mpr (.inr hq), same⟩
      · rintro ⟨q, hq, rfl⟩
        rcases (split q).mp hq with hq | hq
        · exact .inl (mem_pfnPtrs.mp hq).1
        · exact .inr ⟨q, hq, rfl⟩
    frames := by
      intro x hx
      rcases List.mem_append.mp hx with hx | hx
      · exact (fresh x hx).1
      · exact inv.frames x hx
    corrupt := inv.corrupt }

/-- A bucket that is not to be had leaves everything as it was. -/
theorem newMdlBucket_failed {host : PageHost}
    (fresh : ∀ frames ∈ host.mdl, ∀ pfn ∈ frames, pfn ∉ o.held)
    (failed : (o.newMdlBucket host).1 ≠ .ok) : (o.newMdlBucket host).2 = o := by
  unfold PageAllocator.newMdlBucket at failed ⊢
  by_cases memory : host.mdlPtr ∧ host.pfnPtrs
  · rw [if_neg (not_not.mpr memory)] at failed ⊢
    cases mdl : host.mdl with
    | none => rfl
    | some frames =>
      rw [mdl] at failed
      dsimp only at failed ⊢
      by_cases count : frames.length ≠ pfnAllocationCount
      · rw [if_pos count]
        have keep : (frames ++ o.held).filter (fun pfn => pfn ∉ frames) = o.held := by
          rw [List.filter_append, List.filter_eq_nil_iff.mpr (by simp),
            List.filter_eq_self.mpr, List.nil_append]
          intro x hx
          simpa using fun there => fresh frames mdl x there hx
        have all : (frames.any fun pfn => pfn ∉ frames ++ o.held) = false := by
          simpa using fun x hx notThere => absurd hx notThere
        simp only [PageAllocator.release, keep, all, Bool.or_false]
      · rw [if_neg count] at failed
        exact absurd rfl failed
  · rw [if_pos memory]

theorem newMdlBucket_ok {host : PageHost} (ok : (o.newMdlBucket host).1 = .ok) :
    ∃ frames, host.mdl = some frames ∧ frames.length = pfnAllocationCount ∧
      (o.newMdlBucket host).2 = { o with
        held := frames ++ o.held
        useCount := Function.update o.useCount ⟨frames⟩ 0
        mdlsAllocated := (o.mdlsAllocated + 1) % wordSize
        mdlList := ⟨frames⟩ :: o.mdlList
        pagesUnused := (MdlPtr.pfnPtrs ⟨frames⟩).reverse ++ o.pagesUnused
        pagesHash := fun h =>
          ((MdlPtr.pfnPtrs ⟨frames⟩).filter fun p => pfnHash p.pfn = h).reverse ++
            o.pagesHash h } := by
  unfold PageAllocator.newMdlBucket at ok ⊢
  by_cases memory : host.mdlPtr ∧ host.pfnPtrs
  · rw [if_neg (not_not.mpr memory)] at ok ⊢
    cases mdl : host.mdl with
    | none =>
      rw [mdl] at ok
      contradiction
    | some frames =>
      rw [mdl] at ok
      dsimp only at ok ⊢
      by_cases count : frames.length ≠ pfnAllocationCount
      · rw [if_pos count] at ok
        contradiction
      · refine ⟨frames, rfl, not_not.mp count, ?_⟩
        rw [if_neg count, PageAllocator.addPages_eq]
  · rw [if_pos memory] at ok
    contradiction

end Operations

end CoLinux
