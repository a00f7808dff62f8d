import CoLinux.Linux.Cofs

/-!
# The page cache of a cofs file

What it is for: the guest's processes see one plain file. `FileBytes` is that file, and `Caches`
relates it to the pages of the guest and the file of the host. The host's part has what no dirty page
holds.
-/

namespace CoLinux

open Lib

namespace CofsInode

variable {Ω : Type} {kernel : PageCache Ω} {s s' : CofsInode} {a : FileBytes} {index k n : Nat}
  {page : CachePage} {ω : Ω}

/-- The page holds what the host does not have yet. -/
def DirtyAt (s : CofsInode) (index : Nat) : Prop :=
  ∃ page, s.pages index = some page ∧ page.dirty = true

/-- A page as part of the file `a`. -/
structure CachePage.Holds (a : FileBytes) (index : Nat) (page : CachePage) : Prop where
  uptodate : page.dirty = true → page.uptodate = true
  bytes : page.uptodate = true → ∀ k < pageCacheSize,
    page.bytes k = a.bytes (index * pageCacheSize + k)

/-- The pages of the inode are those of the file `a`. -/
structure Filled (s : CofsInode) (a : FileBytes) : Prop where
  size : s.size = a.length
  length : s.file.length = a.length
  small : a.length ≤ maxLfsFilesize
  page : ∀ index page, s.pages index = some page → CachePage.Holds a index page

/-- The inode with its cache stands for the file `a`. -/
structure Caches (s : CofsInode) (a : FileBytes) : Prop extends s.Filled a where
  file : ∀ x, ¬ s.DirtyAt (x / pageCacheSize) → s.file.bytes x = a.bytes x

/-! ## Page numbers -/

theorem shift_eq (index : Nat) : index <<< pageCacheShift = index * pageCacheSize :=
  Nat.shiftLeft_eq _ _

theorem index_eq {pos : Nat} (small : pos ≤ maxLfsFilesize) :
    pos >>> pageCacheShift % wordSize = pos / pageCacheSize := by
  rw [Nat.shiftRight_eq_div_pow]
  apply Nat.mod_eq_of_lt
  simp only [pageCacheShift, wordSize, maxLfsFilesize] at small ⊢
  omega

theorem fileEndIndex_eq (small : s.size ≤ maxLfsFilesize) :
    s.fileEndIndex = s.size / pageCacheSize := index_eq small

/-- A page holds what the file has of it. -/
theorem getWriteCount_eq (small : s.size ≤ maxLfsFilesize) :
    s.getWriteCount index = min pageCacheSize (s.size - index * pageCacheSize) := by
  unfold getWriteCount
  rw [fileEndIndex_eq small]
  dsimp only [pageCacheSize]
  split
  · omega
  · split <;> omega

/-! ## Pages -/

@[simp] theorem setPage_pages_self : (s.setPage index page).pages index = some page :=
  Function.update_self ..

theorem setPage_pages_ne {i : Nat} (other : i ≠ index) :
    (s.setPage index page).pages i = s.pages i := Function.update_of_ne other ..

theorem setPage_pages_cases {i : Nat} {q : CachePage}
    (held : (s.setPage index page).pages i = some q) :
    i = index ∧ q = page ∨ i ≠ index ∧ s.pages i = some q := by
  by_cases same : i = index
  · subst same
    rw [setPage_pages_self] at held
    exact .inl ⟨rfl, (Option.some.inj held).symm⟩
  · rw [setPage_pages_ne same] at held
    exact .inr ⟨same, held⟩

theorem dirtyAt_setPage {i : Nat} :
    (s.setPage index page).DirtyAt i ↔ if i = index then page.dirty = true else s.DirtyAt i := by
  unfold DirtyAt
  split
  · rename_i same
    subst same
    simp
  · rename_i other
    rw [setPage_pages_ne other]

namespace Caches

/-- A page comes or fills, and the host's part stays what it is. -/
theorem setPage (c : s.Caches a) (holds : CachePage.Holds a index page)
    (clean : page.dirty = false → ¬ s.DirtyAt index) : (s.setPage index page).Caches a where
  size := c.size
  length := c.length
  small := c.small
  page := by
    intro i q held
    rcases setPage_pages_cases held with ⟨rfl, rfl⟩ | ⟨-, held⟩
    · exact holds
    · exact c.page i q held
  file := by
    intro x notDirty
    apply c.file
    intro dirty
    apply notDirty
    apply dirtyAt_setPage.mpr
    split
    · rename_i same
      rw [same] at dirty
      exact Bool.of_not_eq_false fun isClean => clean isClean dirty
    · exact dirty

theorem not_dirtyAt (c : s.Caches a) (held : s.pages index = some page)
    (old : page.uptodate = false) : ¬ s.DirtyAt index := by
  rintro ⟨q, held', dirty⟩
  rw [held] at held'
  cases held'
  rw [(c.page index page held).uptodate dirty] at old
  exact absurd old Bool.true_eq_false.mp

theorem grabCachePage (documented : kernel.Documented) (c : s.Caches a)
    (grabbed : s.grabCachePage kernel ω index = some s') :
    s'.Caches a ∧ s'.size = s.size ∧ s'.file = s.file ∧ ∃ page, s'.pages index = some page ∧
      (page.uptodate = true → s' = s) := by
  obtain ⟨pages, given, rfl⟩ := Option.map_eq_some_iff.mp grabbed
  cases held : s.pages index with
  | some page =>
    rw [documented.found ω index s.pages page held] at given
    cases given
    exact ⟨c, rfl, rfl, page, held, fun _ => rfl⟩
  | none =>
    obtain ⟨bytes, rfl⟩ := documented.fresh ω index s.pages pages held given
    have notDirty : ¬ s.DirtyAt index := by
      rintro ⟨q, held', -⟩
      rw [held] at held'
      cases held'
    have blank : CachePage.Holds a index ⟨bytes, false, false⟩ := by
      refine ⟨fun h => h, ?_⟩
      intro h
      cases h
    refine ⟨c.setPage blank fun _ => notDirty, rfl, rfl, _, setPage_pages_self, ?_⟩
    intro h
    cases h

/-! ### Reading -/

/-- What the host reads of a page without dirty bytes, into a buffer that is clear at the file's
end. -/
theorem read_eq {offset count i : Nat} {buffer : ByteMem} (c : s.Caches a) (inside : i < count)
    (notDirty : ¬ s.DirtyAt ((offset + i) / pageCacheSize))
    (clear : s.size < offset + count → buffer i = 0) :
    s.file.read offset count buffer i = a.bytes (offset + i) := by
  rw [← c.file _ notDirty]
  apply FileBytes.read_eq inside
  intro behind
  apply clear
  rw [c.size, ← c.length]
  omega

theorem fuseReadpage (c : s.Caches a) (served : Bool) (held : s.pages index = some page)
    (old : page.uptodate = false) : (s.fuseReadpage served index).Caches a := by
  have notDirty := c.not_dirtyAt held old
  have clean : page.dirty = false := by
    apply Bool.eq_false_iff.mpr
    intro dirty
    exact notDirty ⟨page, held, dirty⟩
  unfold CofsInode.fuseReadpage
  rw [held]
  dsimp only
  split
  · refine c.setPage ⟨fun _ => rfl, ?_⟩ fun _ => notDirty
    intro _ k lt
    rw [← shift_eq]
    apply c.read_eq lt
    · rw [shift_eq]
      have same : (index * pageCacheSize + k) / pageCacheSize = index := by
        dsimp only [pageCacheSize] at lt ⊢
        omega
      rw [same]
      exact notDirty
    · intro short
      rw [if_pos short]
  · refine c.setPage ⟨?_, ?_⟩ fun _ => notDirty
    · intro dirty
      rw [clean] at dirty
      cases dirty
    · intro new
      rw [old] at new
      cases new

theorem fault (documented : kernel.Documented) (c : s.Caches a) (ω : Ω) (served : Bool)
    (index : Nat) : (s.fault kernel ω served index).Caches a := by
  unfold CofsInode.fault
  cases grabbed : s.grabCachePage kernel ω index with
  | none => exact c
  | some s' =>
    obtain ⟨c', -, -, page, held, -⟩ := c.grabCachePage documented grabbed
    dsimp only
    rw [held]
    cases old : page.uptodate with
    | true => simpa [old] using c'
    | false => simpa [old] using c'.fuseReadpage served held old

/-! ### Big reads -/

theorem fillPage {blBuf : ByteMem} {startIndex i : Nat} (c : s.Caches a)
    (block : ∀ k < pageCacheSize,
      blBuf (i * pageCacheSize + k) = s.file.bytes ((startIndex + i) * pageCacheSize + k)) :
    (s.fillPage blBuf startIndex i).Caches a := by
  unfold CofsInode.fillPage
  cases held : s.pages (startIndex + i) with
  | none => exact c
  | some page =>
    dsimp only
    split
    · exact c
    rename_i old
    have notDirty := c.not_dirtyAt held (Bool.eq_false_iff.mpr old)
    refine c.setPage ⟨fun _ => rfl, ?_⟩ fun _ => notDirty
    intro _ k lt
    dsimp only
    rw [block k lt]
    apply c.file
    have same : ((startIndex + i) * pageCacheSize + k) / pageCacheSize = startIndex + i := by
      dsimp only [pageCacheSize] at lt ⊢
      omega
    rw [same]
    exact notDirty

theorem fillPage_file {blBuf : ByteMem} {startIndex i : Nat} :
    (s.fillPage blBuf startIndex i).file = s.file := by
  unfold CofsInode.fillPage
  split
  · rfl
  · split <;> rfl

theorem cacheBlockLoop (documented : kernel.Documented) {ω : Nat → Ω} {blBuf : ByteMem}
    {startIndex : Nat} :
    ∀ {n i : Nat} {s : CofsInode}, s.Caches a →
      (∀ j, j < i + n → ∀ k < pageCacheSize,
        blBuf (j * pageCacheSize + k) = s.file.bytes ((startIndex + j) * pageCacheSize + k)) →
      (CofsInode.cacheBlockLoop kernel ω blBuf startIndex n i s).Caches a := by
  intro n
  induction n with
  | zero =>
    intro i s c _
    exact c
  | succ n ih =>
    intro i s c block
    unfold CofsInode.cacheBlockLoop
    split
    · exact c
    · rename_i s' grabbed
      obtain ⟨c', -, file, -⟩ := c.grabCachePage documented grabbed
      rw [← file] at block
      apply ih
      · exact c'.fillPage (block i (by omega))
      · intro j lt
        rw [fillPage_file]
        exact block j (by omega)

theorem blockStartIndex_eq {blIndex : Nat} (low : blIndex < 2 ^ 28) :
    blockStartIndex blIndex = blIndex * 16 := by
  unfold blockStartIndex
  rw [Nat.shiftLeft_eq]
  dsimp only [fuseBlockPageShift, fuseBlockShift, pageCacheShift, wordSize]
  omega

/-- A block has at most 16 pages. -/
theorem blockEndIndex_le {blIndex : Nat} (low : blIndex < 2 ^ 28) :
    s.blockEndIndex blIndex + 1 - blockStartIndex blIndex ≤ 16 := by
  rw [blockStartIndex_eq low]
  unfold CofsInode.blockEndIndex
  rw [Nat.shiftLeft_eq]
  dsimp only [fuseBlockPageShift, fuseBlockShift, pageCacheShift, wordSize]
  omega

theorem fuseCacheBlock (documented : kernel.Documented) {ω : Nat → Ω} {blBuf : ByteMem}
    {blIndex : Nat} (c : s.Caches a) (low : blIndex < 2 ^ 28)
    (block : ∀ i < fuseBlockSize, blBuf i = s.file.bytes (blIndex <<< fuseBlockShift + i)) :
    (s.fuseCacheBlock kernel ω blBuf blIndex).Caches a := by
  have start := blockStartIndex_eq low
  have few := blockEndIndex_le (s := s) low
  apply c.cacheBlockLoop documented
  intro j lt k inPage
  dsimp only [pageCacheSize] at inPage ⊢
  rw [block _ (by dsimp only [fuseBlockSize]; omega), start, Nat.shiftLeft_eq]
  refine congrArg s.file.bytes ?_
  dsimp only [fuseBlockShift]
  omega

theorem bigreadLoop (documented : kernel.Documented) {answers : Nat → BlockAnswers Ω} :
    ∀ {n blIndex : Nat} {s : CofsInode}, s.Caches a → (n ≠ 0 → blIndex + n ≤ 2 ^ 28) →
      (CofsInode.bigreadLoop kernel answers n blIndex s).Caches a := by
  intro n
  induction n with
  | zero =>
    intro blIndex s c _
    exact c
  | succ n ih =>
    intro blIndex s c bound
    have low := bound (Nat.succ_ne_zero n)
    unfold CofsInode.bigreadLoop
    split
    · exact c
    rename_i blBuf given
    apply ih _ (fun _ => by omega)
    split
    · exact c
    unfold CofsInode.fuseFileReadBlock
    dsimp only
    cases (answers blIndex).served with
    | false => exact c
    | true =>
      simp only [if_true]
      apply c.fuseCacheBlock documented (by omega)
      intro i inside
      apply FileBytes.read_eq inside
      intro behind
      rw [if_pos]
      rw [c.size, ← c.length]
      omega

theorem fuseFileBigread (documented : kernel.Documented) {answers : Nat → BlockAnswers Ω}
    {pos count : Nat} (c : s.Caches a) : (s.fuseFileBigread kernel answers pos count).Caches a := by
  unfold CofsInode.fuseFileBigread
  dsimp only
  apply c.bigreadLoop documented
  intro some
  have small := c.small
  rw [← c.size] at small
  have low : s.size >>> fuseBlockShift % wordSize < 2 ^ 28 := by
    rw [Nat.shiftRight_eq_div_pow]
    dsimp only [fuseBlockShift, wordSize, maxLfsFilesize] at small ⊢
    omega
  omega

end Caches

/-! ### Write-backs -/

/-- A write-back cleans the page, and the host has its bytes then, unless it refuses them. -/
theorem Filled.fuseWritepage (f : s.Filled a) (held : s.pages index = some page)
    (new : page.uptodate = true) (served : Bool) :
    (s.fuseWritepage served index).Filled a ∧
      (s.fuseWritepage served index).pages = (s.setPage index { page with dirty := false }).pages ∧
      ∀ x, (s.fuseWritepage served index).file.bytes x =
        if x / pageCacheSize = index ∧ served = true then a.bytes x else s.file.bytes x := by
  have count : s.getWriteCount index = _ := getWriteCount_eq (f.size ▸ f.small)
  have holds : ∀ i q, (s.setPage index { page with dirty := false }).pages i = some q →
      CachePage.Holds a i q := by
    intro i q held'
    rcases setPage_pages_cases held' with ⟨rfl, rfl⟩ | ⟨-, held'⟩
    · exact ⟨fun _ => new, (f.page _ page held).bytes⟩
    · exact f.page i q held'
  have behind : ∀ x, a.length ≤ x → s.file.bytes x = a.bytes x := by
    intro x far
    rw [a.zero x far, s.file.zero x (f.length ▸ far)]
  unfold CofsInode.fuseWritepage
  rw [held]
  dsimp only
  by_cases refused : s.getWriteCount index = 0 ∨ served = false
  · rw [if_pos refused]
    refine ⟨⟨f.size, f.length, f.small, holds⟩, rfl, fun x => ?_⟩
    split
    · rename_i here
      have none := refused.resolve_right (by simp [here.2])
      refine behind x ?_
      rw [← f.size]
      dsimp only [pageCacheSize] at *
      omega
    · rfl
  · rw [if_neg refused]
    obtain ⟨-, answered⟩ := not_or.mp refused
    have inside : index * pageCacheSize + s.getWriteCount index ≤ s.file.length := by
      rw [f.length, ← f.size]
      omega
    simp only [writeBuffer, shift_eq, Nat.add_zero, Nat.zero_add]
    refine ⟨⟨f.size, (FileBytes.length_write_inside inside).trans f.length, f.small, holds⟩, trivial,
      fun x => ?_⟩
    rw [FileBytes.bytes_write]
    by_cases here : x / pageCacheSize = index
    · have both : x / pageCacheSize = index ∧ served = true :=
        ⟨here, Bool.of_not_eq_false answered⟩
      rw [if_pos both]
      split
      · rename_i written
        rw [(f.page index page held).bytes new _ (by omega)]
        exact congrArg a.bytes (by omega)
      · refine behind x ?_
        rw [← f.size]
        dsimp only [pageCacheSize] at *
        omega
    · have neither : ¬ (x / pageCacheSize = index ∧ served = true) := fun both => here both.1
      rw [if_neg neither]
      refine if_neg ?_
      rintro ⟨low, high⟩
      apply here
      dsimp only [pageCacheSize] at *
      omega

/-- What the write-backs of some pages leave. -/
structure Synced (s : CofsInode) (a : FileBytes) (l : List Nat) (served : Nat → Bool)
    (s' : CofsInode) : Prop where
  filled : s'.Filled a
  pages : ∀ i, s'.pages i =
    if i ∈ l then (s.pages i).map fun page => { page with dirty := false } else s.pages i
  file : ∀ x, s'.file.bytes x =
    if x / pageCacheSize ∈ l ∧ served (x / pageCacheSize) = true then a.bytes x
    else s.file.bytes x

theorem Filled.sync (f : s.Filled a) {l : List Nat} (served : Nat → Bool)
    (new : ∀ i ∈ l, ∃ page, s.pages i = some page ∧ page.uptodate = true) :
    s.Synced a l served (l.foldl (fun s i => s.fuseWritepage (served i) i) s) := by
  induction l generalizing s with
  | nil => exact ⟨f, fun _ => rfl, fun _ => (if_neg fun both => absurd both.1 List.not_mem_nil).symm⟩
  | cons i l ih =>
    obtain ⟨page, held, isNew⟩ := new i List.mem_cons_self
    obtain ⟨filled, pages, file⟩ := f.fuseWritepage held isNew (served i)
    have clean : ∀ j, (s.fuseWritepage (served i) i).pages j =
        if j = i then some { page with dirty := false } else s.pages j := by
      intro j
      rw [pages]
      split
      · rename_i same
        rw [same, setPage_pages_self]
      · rename_i other
        exact setPage_pages_ne other
    have rest := ih filled fun j mem => by
      obtain ⟨q, heldQ, newQ⟩ := new j (List.mem_cons_of_mem i mem)
      rw [clean]
      split
      · exact ⟨_, rfl, isNew⟩
      · exact ⟨q, heldQ, newQ⟩
    refine ⟨rest.filled, fun j => ?_, fun x => ?_⟩
    · rw [List.foldl_cons, rest.pages, clean]
      by_cases same : j = i
      · subst same
        simp [held]
      · simp only [List.mem_cons, same, false_or, if_false]
    · rw [List.foldl_cons, rest.file, file]
      by_cases same : x / pageCacheSize = i
      · subst same
        by_cases answered : served (x / pageCacheSize) = true <;> simp [answered]
      · simp only [List.mem_cons, same, false_or, false_and, if_false]

/-! ### Attributes -/

theorem Filled.changeAttributes_self (f : s.Filled a) (ω : Ω) :
    s.changeAttributes kernel ω a.length = s := by
  unfold CofsInode.changeAttributes
  rw [f.size, if_neg (fun other => other rfl), ← f.size]

theorem changeAttributes_file (s : CofsInode) (ω : Ω) (n : Nat) :
    (s.changeAttributes kernel ω n).file = s.file := by
  unfold CofsInode.changeAttributes
  dsimp only
  split <;> rfl

/-- Pages may go when the size changes, but not a dirty one. -/
theorem changeAttributes_pages (documented : kernel.Documented) (s : CofsInode) (ω : Ω) (n i : Nat) :
    (s.changeAttributes kernel ω n).pages i = s.pages i ∨
      (s.changeAttributes kernel ω n).pages i = none ∧ ¬ s.DirtyAt i := by
  unfold CofsInode.changeAttributes
  dsimp only
  split
  · refine (documented.invalidated ω s.pages i).imp_right fun ⟨gone, clean⟩ => ⟨gone, ?_⟩
    rintro ⟨page, held, dirty⟩
    exact absurd (dirty.symm.trans (clean page held)) nofun
  · exact .inl rfl

/-- What a new size leaves of the cache and of the host's file. -/
structure Resized (s : CofsInode) (a : FileBytes) (n : Nat) (s' : CofsInode) : Prop where
  filled : s'.Filled (a.setLength n)
  dirty : ∀ i, s'.DirtyAt i → s.DirtyAt i
  kept : ∀ i, i * pageCacheSize < n → s.DirtyAt i → s'.DirtyAt i
  file : s'.file = s.file.setLength n

theorem Filled.vmtruncate (documented : kernel.Documented) (f : s.Filled a) (small : n ≤ maxLfsFilesize)
    (ω : Ω) :
    s.Resized a n (({ s with file := s.file.setLength n }.vmtruncate kernel ω n).changeAttributes
      kernel ω n) := by
  have size := documented.truncatedSize ω n s.pages
  have same : ({ s with file := s.file.setLength n }.vmtruncate kernel ω n).changeAttributes
      kernel ω n = ⟨n, (kernel.vmtruncate ω n s.pages).2, s.file.setLength n⟩ := by
    unfold CofsInode.changeAttributes CofsInode.vmtruncate
    dsimp only
    rw [if_neg fun other => other size]
  rw [same]
  refine ⟨⟨rfl, rfl, small, fun i page held => ?_⟩, ?_, ?_, rfl⟩
  · obtain ⟨was, before, uptodate, dirty, bytes⟩ := documented.truncated ω n s.pages i page held
    have holds := f.page i was before
    refine ⟨fun h => uptodate.trans (holds.uptodate (dirty ▸ h)), fun new k lt => ?_⟩
    rw [bytes k lt, FileBytes.bytes_setLength]
    split
    · rw [if_neg (by omega)]
    · rw [if_pos (by omega)]
      exact holds.bytes (uptodate ▸ new) k lt
  · rintro i ⟨page, held, isDirty⟩
    obtain ⟨was, before, -, dirty, -⟩ := documented.truncated ω n s.pages i page held
    exact ⟨was, before, dirty ▸ isDirty⟩
  · rintro i inside ⟨was, before, isDirty⟩
    obtain ⟨page, held⟩ := Option.isSome_iff_exists.mp
      (documented.kept ω n s.pages i was before inside)
    obtain ⟨was', before', -, dirty, -⟩ := documented.truncated ω n s.pages i page held
    rw [before] at before'
    cases before'
    exact ⟨page, held, dirty.trans isDirty⟩

theorem Filled.grow (documented : kernel.Documented) (f : s.Filled a) (longer : a.length ≤ n)
    (small : n ≤ maxLfsFilesize) (ω : Ω) :
    s.Resized a n ({ s with file := s.file.setLength n }.changeAttributes kernel ω n) := by
  have pages := changeAttributes_pages documented { s with file := s.file.setLength n } ω n
  have file : ({ s with file := s.file.setLength n }.changeAttributes kernel ω n).file =
    s.file.setLength n := changeAttributes_file _ ω n
  refine ⟨⟨rfl, by rw [file]; rfl, small, fun i page held => ?_⟩, ?_, ?_, file⟩
  · rcases pages i with same | ⟨gone, -⟩
    · have holds := f.page i page (same.symm.trans held)
      refine ⟨holds.uptodate, fun new k lt => ?_⟩
      rw [FileBytes.bytes_setLength_of_le longer]
      exact holds.bytes new k lt
    · exact absurd (gone.symm.trans held) nofun
  · rintro i ⟨page, held, isDirty⟩
    rcases pages i with same | ⟨gone, -⟩
    · exact ⟨page, same.symm.trans held, isDirty⟩
    · exact absurd (gone.symm.trans held) nofun
  · rintro i - ⟨page, held, isDirty⟩
    rcases pages i with same | ⟨-, clean⟩
    · exact ⟨page, same.trans held, isDirty⟩
    · exact absurd ⟨page, held, isDirty⟩ clean

/-- What `fuse_setattr` does with an answer to a size. -/
theorem Filled.resize (documented : kernel.Documented) (f : s.Filled a) (small : n ≤ maxLfsFilesize)
    (ω : Ω) :
    s.Resized a n ((if n < s.size then
        { s with file := s.file.setLength n }.vmtruncate kernel ω n
      else { s with file := s.file.setLength n }).changeAttributes kernel ω n) := by
  split
  · exact f.vmtruncate documented small ω
  · rename_i longer
    exact f.grow documented (by rw [← f.size]; omega) small ω

/-- `fuse_sync_inode` writes back some of the dirty pages. -/
theorem Filled.fuseSyncInode (documented : kernel.Documented) (f : s.Filled a) (ω : Ω)
    (served : Nat → Bool) :
    s.Synced a (kernel.filemapFdatawrite ω s.pages) served (s.fuseSyncInode kernel ω served) := by
  refine f.sync served fun i mem => ?_
  obtain ⟨page, held, dirty⟩ := documented.dirty ω s.pages i mem
  exact ⟨page, held, (f.page i page held).uptodate dirty⟩

namespace Caches

/-- The host has every byte below `n` that no dirty page has, when every write-back of the pages
that matter below `n` is answered or brings nothing new. -/
theorem synced {l : List Nat} {served : Nat → Bool} (c : s.Caches a)
    (sync : s.Synced a l served s')
    (dirty : ∀ i ∈ l, ∃ page, s.pages i = some page ∧ page.dirty = true) {x : Nat}
    (sent : ∀ i ∈ l, served i = true ∨ ∀ page, s.pages i = some page → ∀ k < pageCacheSize,
      i * pageCacheSize + k = x → s.file.bytes x = page.bytes k)
    (notDirty : ¬ s'.DirtyAt (x / pageCacheSize)) : s'.file.bytes x = a.bytes x := by
  rw [sync.file]
  split
  · rfl
  rename_i refused
  by_cases mem : x / pageCacheSize ∈ l
  · obtain ⟨page, held, isDirty⟩ := dirty _ mem
    have place : x / pageCacheSize * pageCacheSize + x % pageCacheSize = x := Nat.div_add_mod' ..
    have lt : x % pageCacheSize < pageCacheSize := Nat.mod_lt _ (by decide)
    have holds := c.page _ page held
    rw [(sent _ mem).resolve_left (fun answered => refused ⟨mem, answered⟩) page held _ lt place,
      holds.bytes (holds.uptodate isDirty) _ lt, place]
  · apply c.file
    rintro ⟨page, held, isDirty⟩
    exact notDirty ⟨page, (sync.pages _).trans ((if_neg mem).trans held), isDirty⟩

theorem fuseWritepage (c : s.Caches a) {served : Bool} (dirty : s.DirtyAt index)
    (sent : served = true ∨ ∀ page, s.pages index = some page → ∀ k < pageCacheSize,
      s.file.bytes (index * pageCacheSize + k) = page.bytes k) :
    (s.fuseWritepage served index).Caches a := by
  obtain ⟨page, held, isDirty⟩ := dirty
  have sync := c.toFilled.sync (l := [index]) (fun _ => served) fun i mem => by
    obtain rfl := List.mem_singleton.mp mem
    exact ⟨page, held, (c.page i page held).uptodate isDirty⟩
  refine ⟨sync.filled, fun x notDirty => c.synced sync ?_ ?_ notDirty⟩
  · intro i mem
    obtain rfl := List.mem_singleton.mp mem
    exact ⟨page, held, isDirty⟩
  · intro i mem
    obtain rfl := List.mem_singleton.mp mem
    refine sent.imp_right fun has page held k lt place => ?_
    rw [← place]
    exact has page held k lt

theorem drop (c : s.Caches a) (which : Nat → Bool) : (s.drop which).Caches a where
  size := c.size
  length := c.length
  small := c.small
  page := by
    intro i page held
    exact c.page i page (Option.filter_eq_some_iff.mp held).1
  file := by
    intro x notDirty
    apply c.file
    rintro ⟨page, held, dirty⟩
    refine notDirty ⟨page, ?_, dirty⟩
    exact Option.filter_eq_some_iff.mpr ⟨held, by simp [dirty]⟩

/-! ### Writes of the guest's processes -/

theorem copyBytes_eq {pos copied : Nat} {data : ByteMem} {k : Nat} (c : s.Caches a)
    (held : s.pages (pos / pageCacheSize) = some page) (lt : k < pageCacheSize)
    (known : page.uptodate = true ∨ copied = pageCacheSize)
    (inPage : pos % pageCacheSize + copied ≤ pageCacheSize) :
    page.bytes.copyBytes (pos % pageCacheSize) copied data k =
      (a.write pos copied data).bytes (pos / pageCacheSize * pageCacheSize + k) := by
  by_cases written : pos % pageCacheSize ≤ k ∧ k < pos % pageCacheSize + copied
  · rw [ByteMem.copyBytes_inside _ _ written.1 written.2]
    dsimp only [pageCacheSize] at *
    rw [FileBytes.bytes_write_inside (by omega) (by omega)]
    exact congrArg data (by omega)
  · rw [ByteMem.copyBytes_outside _ _ (by omega)]
    dsimp only [pageCacheSize] at *
    rw [FileBytes.bytes_write_outside (by omega)]
    exact (c.page _ page held).bytes (known.resolve_right (by omega)) k lt

/-- The host has the bytes that were copied to a page. -/
theorem written {pos copied : Nat} {data bytes : ByteMem} {q : CachePage} (c : s.Caches a)
    (held : s.pages (pos / pageCacheSize) = some page) (some : copied ≠ 0)
    (inPage : pos % pageCacheSize + copied ≤ pageCacheSize)
    (small : pos + copied ≤ maxLfsFilesize)
    (holds : CachePage.Holds (a.write pos copied data) (pos / pageCacheSize) q)
    (same : q.dirty = page.dirty) (source : ∀ k < copied, bytes k = data k) :
    Caches { s.setPage (pos / pageCacheSize) q with
      file := s.file.write pos copied bytes
      size := if s.size < pos + copied then pos + copied else s.size }
      (a.write pos copied data) where
  size := by
    rw [FileBytes.length_write some, c.size]
    dsimp only
    split <;> omega
  length := by
    rw [FileBytes.length_write some, c.length]
    exact (FileBytes.length_write some).symm
  small := by
    rw [FileBytes.length_write some]
    exact Nat.max_le.mpr ⟨c.small, small⟩
  page := by
    intro i p held'
    rcases setPage_pages_cases held' with ⟨rfl, rfl⟩ | ⟨other, held'⟩
    · exact holds
    · refine ⟨(c.page i p held').uptodate, ?_⟩
      intro new k lt
      rw [(c.page i p held').bytes new k lt]
      refine (FileBytes.bytes_write_outside ?_).symm
      dsimp only [pageCacheSize] at other lt inPage ⊢
      omega
  file := by
    intro x notDirty
    by_cases inside : pos ≤ x ∧ x < pos + copied
    · rw [FileBytes.bytes_write_inside inside.1 inside.2]
      exact (source _ (by omega)).trans (FileBytes.bytes_write_inside inside.1 inside.2).symm
    · have outside : x < pos ∨ pos + copied ≤ x := by omega
      rw [FileBytes.bytes_write_outside outside]
      refine (c.file x ?_).trans (FileBytes.bytes_write_outside outside).symm
      rintro ⟨p, held', dirty⟩
      apply notDirty
      apply dirtyAt_setPage.mpr
      split
      · rename_i here
        rw [here, held] at held'
        cases held'
        exact same.trans dirty
      · exact ⟨p, held', dirty⟩

theorem fuseWriteEnd (documented : kernel.Documented) {pos copied : Nat} {data : ByteMem}
    (c : s.Caches a) (ω : Ω) (held : s.pages (pos / pageCacheSize) = some page)
    (inPage : pos % pageCacheSize + copied ≤ pageCacheSize)
    (small : pos + copied ≤ maxLfsFilesize) :
    ((s.copyFromUser kernel ω pos copied data).fuseWriteEnd true pos copied).Caches
      (a.write pos copied data) := by
  have number := index_eq (show pos ≤ maxLfsFilesize by omega)
  have bytes : ∀ k < pageCacheSize, page.uptodate = true ∨ copied = pageCacheSize →
      page.bytes.copyBytes (pos % pageCacheSize) copied data k =
        (a.write pos copied data).bytes (pos / pageCacheSize * pageCacheSize + k) :=
    fun k lt known => c.copyBytes_eq held lt known inPage
  have source : ∀ k < copied, page.bytes.copyBytes (pos % pageCacheSize) copied data
      (pos % pageCacheSize + k) = data k := by
    intro k lt
    rw [ByteMem.copyBytes_inside _ _ (by omega) (by omega), Nat.add_sub_cancel_left]
  have place : pos / pageCacheSize * pageCacheSize + pos % pageCacheSize = pos :=
    Nat.div_add_mod' ..
  unfold CofsInode.copyFromUser CofsInode.fuseWriteEnd
  simp only [number, held, documented.copied, setPage_pages_self, writeBuffer, shift_eq, place]
  by_cases some : copied = 0
  · rw [if_pos (.inl some)]
    subst some
    rw [FileBytes.write_zero] at bytes ⊢
    refine c.setPage ⟨(c.page _ page held).uptodate, fun new k lt => bytes k lt (.inl new)⟩ ?_
    rintro clean ⟨p, held', dirty⟩
    rw [held] at held'
    cases held'
    exact absurd (clean.symm.trans dirty) Bool.false_ne_true
  · rw [if_neg (by simp [some])]
    split
    · rename_i full
      have result := c.written (q := ⟨_, true, page.dirty⟩) held some inPage small
        ⟨fun _ => rfl, fun _ k lt => bytes k lt (.inr full)⟩ rfl source
      simp only [CofsInode.setPage, Function.update_idem] at result ⊢
      exact result
    · exact c.written held some inPage small
        ⟨(c.page _ page held).uptodate, fun new k lt => bytes k lt (.inl new)⟩ rfl source

/-- A write that the host refuses leaves the copied bytes in the page. -/
theorem copyFromUser (documented : kernel.Documented) {pos copied : Nat} {data : ByteMem}
    (c : s.Caches a) (ω : Ω) (held : s.pages (pos / pageCacheSize) = some page)
    (small : pos ≤ maxLfsFilesize)
    (same : page.uptodate = true → ∀ k < copied, data k = page.bytes (pos % pageCacheSize + k)) :
    (s.copyFromUser kernel ω pos copied data).Caches a := by
  unfold CofsInode.copyFromUser
  simp only [index_eq small, held, documented.copied]
  refine c.setPage ⟨(c.page _ page held).uptodate, ?_⟩ ?_
  · intro new k lt
    rw [← (c.page _ page held).bytes new k lt]
    by_cases written : pos % pageCacheSize ≤ k ∧ k < pos % pageCacheSize + copied
    · refine (ByteMem.copyBytes_inside _ _ written.1 written.2).trans ?_
      rw [same new _ (by omega)]
      exact congrArg page.bytes (by omega)
    · exact ByteMem.copyBytes_outside _ _ (by omega)
  · rintro clean ⟨p, held', dirty⟩
    rw [held] at held'
    cases held'
    exact absurd (clean.symm.trans dirty) Bool.false_ne_true

theorem store {byte : UInt8} {a' : FileBytes} (c : s.Caches a) (held : s.pages index = some page)
    (new : page.uptodate = true) (length : a'.length = a.length)
    (here : a'.bytes (index * pageCacheSize + k) = byte)
    (others : ∀ x, x ≠ index * pageCacheSize + k → a'.bytes x = a.bytes x)
    (inPage : k < pageCacheSize) : (s.store index k byte).Caches a' := by
  unfold CofsInode.store
  simp only [held]
  refine ⟨⟨c.size.trans length.symm, c.length.trans length.symm, length ▸ c.small, ?_⟩, ?_⟩
  · intro i q held'
    rcases setPage_pages_cases held' with ⟨rfl, rfl⟩ | ⟨other, held'⟩
    · refine ⟨fun _ => new, ?_⟩
      intro _ j lt
      by_cases same : j = k
      · subst same
        exact (Function.update_self ..).trans here.symm
      · refine (Function.update_of_ne same ..).trans ?_
        rw [others _ (by omega)]
        exact (c.page i page held).bytes new j lt
    · refine ⟨(c.page i q held').uptodate, ?_⟩
      intro isNew j lt
      rw [others _ (by dsimp only [pageCacheSize] at *; omega)]
      exact (c.page i q held').bytes isNew j lt
  · intro x notDirty
    rw [dirtyAt_setPage] at notDirty
    split at notDirty
    · exact absurd rfl notDirty
    · rename_i other
      rw [others x (by dsimp only [pageCacheSize] at *; omega)]
      exact c.file x notDirty

end Caches

end CofsInode

end CoLinux
