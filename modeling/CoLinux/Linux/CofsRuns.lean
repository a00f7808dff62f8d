import CoLinux.Linux.CofsCache
import CoLinux.Lib.Refinement

/-!
# A cofs file over whole runs

`Shows` is what the guest's processes and the host can see of the plain file, `Allowed` the condition
on a step. `step_caches` keeps the cache true to the file, and `not_shows` is about the steps that do
not.
-/

namespace CoLinux

open Lib

namespace CofsInode

variable {s : CofsInode} {a : FileBytes}

/-- What the guest's processes find in the pages, and the host in its file but for what is still
dirty. -/
structure Shows (s : CofsInode) (a : FileBytes) : Prop where
  size : s.size = a.length
  bytes : ∀ index page, s.pages index = some page → page.uptodate = true →
    ∀ k < pageCacheSize, page.bytes k = a.bytes (index * pageCacheSize + k)
  length : s.file.length = a.length
  synced : ∀ x, ¬ s.DirtyAt (x / pageCacheSize) → s.file.bytes x = a.bytes x

theorem Caches.shows (c : s.Caches a) : s.Shows a :=
  ⟨c.size, fun index page held => (c.page index page held).bytes, c.length, c.file⟩

end CofsInode

namespace CofsEvent

variable {Ω : Type} {kernel : PageCache Ω} {s : CofsInode} {a : FileBytes} {e : CofsEvent Ω}

/-- What a plain file does. -/
def spec : CofsEvent Ω → FileBytes → FileBytes
  | .write pos copied data _ served, a => if served then a.write pos copied data else a
  | .store index k byte, a =>
    if index * pageCacheSize + k < a.length then
      a.write (index * pageCacheSize + k) 1 fun _ => byte
    else a
  | .setattr (some size) _ _ answered, a => if answered then a.setLength size else a
  | _, a => a

/-- What the kernel promises of its calls: a write stays within a page and below the largest file,
and is sent to the host for a page that is there; a process stores into a page that it has read; only
dirty pages are written back. -/
def Valid (kernel : PageCache Ω) (s : CofsInode) : CofsEvent Ω → Prop
  | .write pos copied _ ω served =>
    pos % pageCacheSize + copied ≤ pageCacheSize ∧ pos + copied ≤ maxLfsFilesize ∧
      (served = true → (s.grabCachePage kernel ω (pos / pageCacheSize)).isSome)
  | .store index k _ =>
    k < pageCacheSize ∧ ∃ page, s.pages index = some page ∧ page.uptodate = true
  | .writepage index _ => s.DirtyAt index
  | .setattr size _ _ _ => ∀ n ∈ size, n ≤ maxLfsFilesize
  | _ => True

/-- Where the cache stays true to the file: a page that is up to date takes no bytes that the host
refuses, the host refuses no bytes that it does not have and that a new size leaves, nothing but
zeros is stored behind the end, and other attributes than the size are set for empty files only. -/
def Allowed (kernel : PageCache Ω) (s : CofsInode) : CofsEvent Ω → Prop
  | .write pos copied data _ served => served = true ∨ ∀ page,
    s.pages (pos / pageCacheSize) = some page → page.uptodate = true →
      ∀ k < copied, data k = page.bytes (pos % pageCacheSize + k)
  | .store index k byte => index * pageCacheSize + k < s.size ∨ byte = 0
  | .writepage index served => served = true ∨ ∀ page, s.pages index = some page →
    ∀ k < pageCacheSize, s.file.bytes (index * pageCacheSize + k) = page.bytes k
  | .setattr none _ _ answered => answered = true → s.size = 0
  | .setattr (some n) ω served answered => ∀ i ∈ kernel.filemapFdatawrite ω s.pages,
    served i = true ∨ ∀ page, s.pages i = some page → ∀ k < pageCacheSize,
      (answered = true → i * pageCacheSize + k < n) →
        s.file.bytes (i * pageCacheSize + k) = page.bytes k
  | _ => True

open CofsInode

theorem fuseWriteEnd_refused {pos copied : Nat} : s.fuseWriteEnd false pos copied = s := by
  unfold CofsInode.fuseWriteEnd
  dsimp only
  split
  · rfl
  · exact if_pos (.inr rfl)

theorem write_caches (documented : kernel.Documented) {pos copied : Nat} {data : ByteMem} {ω : Ω}
    {served : Bool} (c : s.Caches a) (valid : Valid kernel s (.write pos copied data ω served))
    (allowed : Allowed kernel s (.write pos copied data ω served)) :
    (s.write kernel ω served pos copied data).Caches
      (spec (.write pos copied data ω served) a) := by
  obtain ⟨inPage, small, given⟩ := valid
  have low : pos ≤ maxLfsFilesize := by omega
  unfold CofsInode.write CofsInode.fuseWriteBegin
  rw [index_eq low]
  dsimp only [spec]
  cases grabbed : s.grabCachePage kernel ω (pos / pageCacheSize) with
  | none =>
    cases served with
    | false => exact c
    | true => exact absurd (given rfl) (by simp [grabbed])
  | some s' =>
    obtain ⟨c', -, -, page, held, old⟩ := c.grabCachePage documented grabbed
    cases served with
    | true => exact c'.fuseWriteEnd documented ω held inPage small
    | false =>
      show ((s'.copyFromUser kernel ω pos copied data).fuseWriteEnd false pos copied).Caches a
      rw [fuseWriteEnd_refused]
      refine c'.copyFromUser documented ω held low ?_
      intro new
      rw [old new] at held
      exact allowed.resolve_left Bool.false_ne_true page held new

theorem store_caches {index k : Nat} {byte : UInt8} (c : s.Caches a)
    (valid : Valid kernel s (.store index k byte))
    (allowed : Allowed kernel s (.store index k byte)) :
    (s.store index k byte).Caches (spec (.store index k byte : CofsEvent Ω) a) := by
  obtain ⟨inPage, page, held, new⟩ := valid
  dsimp only [spec]
  rw [← c.size]
  split
  · rename_i inside
    refine c.store held new ?_ ?_ ?_ inPage
    · exact FileBytes.length_write_inside (by rw [← c.size]; omega)
    · exact FileBytes.bytes_write_inside (Nat.le_refl _) (Nat.lt_succ_self _)
    · intro x other
      exact FileBytes.bytes_write_outside (by omega)
  · rename_i behind
    refine c.store held new rfl ?_ (fun _ _ => rfl) inPage
    rw [allowed.resolve_left behind]
    exact a.zero _ (by rw [← c.size]; omega)

/-- A new size, with the write-backs that come first. -/
theorem setattr_caches (documented : kernel.Documented) {n : Nat} {ω : Ω} {served : Nat → Bool}
    {answered : Bool} (c : s.Caches a) (small : n ≤ maxLfsFilesize)
    (allowed : Allowed kernel s (.setattr (some n) ω served answered)) :
    (s.fuseSetattr kernel ω served (some n) answered).Caches
      (spec (.setattr (some n) ω served answered) a) := by
  have sync := c.toFilled.fuseSyncInode documented ω served
  have sent : ∀ x, (answered = true → x < n) →
      ¬ (s.fuseSyncInode kernel ω served).DirtyAt (x / pageCacheSize) →
        (s.fuseSyncInode kernel ω served).file.bytes x = a.bytes x := by
    intro x below
    refine c.synced sync (documented.dirty ω s.pages) fun i mem => ?_
    refine (allowed i mem).imp_right fun has page held k lt place => ?_
    rw [← place] at below ⊢
    exact has page held k lt below
  unfold CofsInode.fuseSetattr
  simp only [Option.isSome_some, if_true, Option.getD_some, true_and, spec]
  generalize s.fuseSyncInode kernel ω served = s' at sync sent ⊢
  cases answered with
  | false => exact ⟨sync.filled, fun x notDirty => sent x nofun notDirty⟩
  | true =>
    have resized := sync.filled.resize documented small ω
    refine ⟨resized.filled, fun x notDirty => ?_⟩
    simp only [if_true] at notDirty ⊢
    rw [resized.file, FileBytes.bytes_setLength, FileBytes.bytes_setLength]
    split
    · rename_i below
      refine sent x (fun _ => below) fun dirty => notDirty (resized.kept _ ?_ dirty)
      dsimp only [pageCacheSize]
      omega
    · rfl

/-- One step of the simulation. -/
theorem step_caches (documented : kernel.Documented) (c : s.Caches a) (valid : e.Valid kernel s)
    (allowed : e.Allowed kernel s) : (e.step kernel s).Caches (e.spec a) := by
  cases e with
  | fault index ω served => exact c.fault documented ω served index
  | read pos count answers => exact c.fuseFileBigread documented
  | write pos copied data ω served => exact write_caches documented c valid allowed
  | store index k byte => exact store_caches c valid allowed
  | writepage index served => exact c.fuseWritepage valid allowed
  | setattr size ω served answered =>
    cases size with
    | none =>
      cases answered with
      | false => exact c
      | true =>
        have empty : a.length = 0 := c.size.symm.trans (allowed rfl)
        have same : s.changeAttributes kernel ω a.length = s := c.changeAttributes_self ω
        rw [empty] at same
        exact same.symm ▸ c
    | some n => exact setattr_caches documented c (valid n rfl) allowed
  | getattr ω answered =>
    dsimp only [CofsEvent.step, spec, CofsInode.fuseDoGetattr]
    rw [c.length, c.changeAttributes_self]
    split <;> exact c
  | drop which => exact c.drop which

/-! ### What a step that is not allowed shows -/

theorem not_shows_write (documented : kernel.Documented) {pos copied : Nat} {data : ByteMem} {ω : Ω}
    {served : Bool} (c : s.Caches a) (valid : Valid kernel s (.write pos copied data ω served))
    (shows : (s.write kernel ω served pos copied data).Shows
      (spec (.write pos copied data ω served) a)) :
    Allowed kernel s (.write pos copied data ω served) := by
  cases served with
  | true => exact .inl rfl
  | false =>
    refine .inr fun page held new k lt => ?_
    obtain ⟨inPage, small, -⟩ := valid
    have there : s.grabCachePage kernel ω (pos / pageCacheSize) = some s := by
      unfold CofsInode.grabCachePage
      rw [documented.found ω _ s.pages page held]
      rfl
    dsimp only [spec] at shows
    unfold CofsInode.write CofsInode.fuseWriteBegin at shows
    rw [index_eq (by omega), there] at shows
    dsimp only at shows
    rw [fuseWriteEnd_refused] at shows
    unfold CofsInode.copyFromUser at shows
    simp only [index_eq (show pos ≤ maxLfsFilesize by omega), held, documented.copied] at shows
    have seen := shows.bytes _ _ setPage_pages_self new (pos % pageCacheSize + k) (by omega)
    rw [if_neg Bool.false_ne_true,
      ← (c.page _ page held).bytes new (pos % pageCacheSize + k) (by omega)] at seen
    rw [← seen]
    dsimp only
    rw [ByteMem.copyBytes_inside _ _ (by omega) (by omega), Nat.add_sub_cancel_left]

theorem not_shows_store {index k : Nat} {byte : UInt8} (c : s.Caches a)
    (valid : Valid kernel s (.store index k byte))
    (shows : (s.store index k byte).Shows (spec (.store index k byte : CofsEvent Ω) a)) :
    Allowed kernel s (.store index k byte) := by
  obtain ⟨inPage, page, held, new⟩ := valid
  refine or_iff_not_imp_left.mpr fun behind => ?_
  dsimp only [spec] at shows
  rw [← c.size, if_neg behind] at shows
  unfold CofsInode.store at shows
  simp only [held] at shows
  have seen := shows.bytes _ _ setPage_pages_self new k inPage
  rw [a.zero _ (by rw [← c.size]; omega)] at seen
  exact (Function.update_self ..).symm.trans seen

/-- A page that was written back is clean, and stays so when the size is set. -/
theorem not_dirtyAt_fuseSetattr (documented : kernel.Documented) {n i : Nat} {ω : Ω}
    {served : Nat → Bool} (c : s.Caches a) (small : n ≤ maxLfsFilesize)
    (mem : i ∈ kernel.filemapFdatawrite ω s.pages) (answered : Bool) :
    ¬ (s.fuseSetattr kernel ω served (some n) answered).DirtyAt i := by
  have sync := c.toFilled.fuseSyncInode documented ω served
  have clean : ¬ (s.fuseSyncInode kernel ω served).DirtyAt i := by
    rintro ⟨page, held, dirty⟩
    rw [sync.pages, if_pos mem] at held
    obtain ⟨was, -, rfl⟩ := Option.map_eq_some_iff.mp held
    exact absurd dirty Bool.false_ne_true
  unfold CofsInode.fuseSetattr
  simp only [Option.isSome_some, if_true, Option.getD_some, true_and]
  cases answered with
  | false => exact clean
  | true => exact fun dirty => clean ((sync.filled.resize documented small ω).dirty i dirty)

theorem not_shows_setattr (documented : kernel.Documented) {n : Nat} {ω : Ω} {served : Nat → Bool}
    {answered : Bool} (c : s.Caches a) (small : n ≤ maxLfsFilesize)
    (shows : (s.fuseSetattr kernel ω served (some n) answered).Shows
      (spec (.setattr (some n) ω served answered) a)) :
    Allowed kernel s (.setattr (some n) ω served answered) := by
  intro i mem
  refine or_iff_not_imp_left.mpr fun refused page held k lt below => ?_
  obtain ⟨q, held', isDirty⟩ := documented.dirty ω s.pages i mem
  rw [held] at held'
  cases held'
  have here : (i * pageCacheSize + k) / pageCacheSize = i := by
    dsimp only [pageCacheSize] at lt ⊢
    omega
  have sync := c.toFilled.fuseSyncInode documented ω served
  have lost : (s.fuseSyncInode kernel ω served).file.bytes (i * pageCacheSize + k) =
      s.file.bytes (i * pageCacheSize + k) := by
    rw [sync.file, if_neg]
    rw [here]
    exact fun both => refused both.2
  have clean : ¬ (s.fuseSetattr kernel ω served (some n) answered).DirtyAt i :=
    not_dirtyAt_fuseSetattr documented c small mem answered
  have seen := shows.synced (i * pageCacheSize + k) (by rw [here]; exact clean)
  rw [(c.page i page held).bytes ((c.page i page held).uptodate isDirty) k lt, ← lost]
  unfold CofsInode.fuseSetattr at seen
  simp only [Option.isSome_some, if_true, Option.getD_some, true_and, spec] at seen
  cases answered with
  | false => exact seen
  | true =>
    have inside := below rfl
    simp only [if_true] at seen
    rw [(sync.filled.resize documented small ω).file, FileBytes.bytes_setLength, if_pos inside,
      FileBytes.bytes_setLength, if_pos inside] at seen
    exact seen

/-- A step that is not allowed shows at once. -/
theorem not_shows (documented : kernel.Documented) (c : s.Caches a) (valid : e.Valid kernel s)
    (other : ¬ e.Allowed kernel s) : ¬ (e.step kernel s).Shows (e.spec a) := by
  intro shows
  cases e with
  | write pos copied data ω served => exact other (not_shows_write documented c valid shows)
  | store index k byte => exact other (not_shows_store c valid shows)
  | writepage index served =>
    apply other
    refine or_iff_not_imp_left.mpr fun refused page held k lt => ?_
    obtain ⟨q, held', dirty⟩ := valid
    rw [held] at held'
    cases held'
    rw [Bool.not_eq_true] at refused
    subst refused
    dsimp only [CofsEvent.step, spec] at shows
    unfold CofsInode.fuseWritepage at shows
    simp only [held, or_true, if_true] at shows
    have here : (index * pageCacheSize + k) / pageCacheSize = index := by
      dsimp only [pageCacheSize] at lt ⊢
      omega
    rw [(c.page index page held).bytes ((c.page index page held).uptodate dirty) k lt]
    refine shows.synced _ ?_
    rw [here, dirtyAt_setPage, if_pos rfl]
    exact Bool.false_ne_true
  | setattr size ω served answered =>
    cases size with
    | none =>
      apply other
      intro rfl
      exact c.size.trans shows.size.symm
    | some n => exact other (not_shows_setattr documented c (valid n rfl) shows)
  | _ => exact other trivial

end CofsEvent

/-- The processes of the guest and the host work on one plain file exactly as long as every step is
allowed. -/
theorem cofs_shows_iff {Ω : Type} {kernel : PageCache Ω} (documented : kernel.Documented)
    (file : FileBytes) (small : file.length ≤ maxLfsFilesize) (es : List (CofsEvent Ω))
    (valid : RunOk (CofsEvent.step kernel) (CofsEvent.Valid kernel) es (openedFile file)) :
    (∀ p, p <+: es →
        (run (CofsEvent.step kernel) p (openedFile file)).Shows (run CofsEvent.spec p file)) ↔
      RunOk (CofsEvent.step kernel) (CofsEvent.Allowed kernel) es (openedFile file) := by
  have keeps : ∀ s a e, s.Caches a → CofsEvent.Valid kernel s e → CofsEvent.Allowed kernel s e →
      (CofsEvent.step kernel e s).Caches (CofsEvent.spec e a) :=
    fun s a e c valid allowed => CofsEvent.step_caches documented c valid allowed
  have start : (openedFile file).Caches file := by
    refine ⟨⟨rfl, rfl, small, ?_⟩, fun _ _ => rfl⟩
    intro index page held
    cases held
  exact forall_prefix_seen_iff_runOk (fun _ _ c => c.shows) keeps
    (fun _ _ _ c valid other => CofsEvent.not_shows documented c valid other) start valid

/-- A page cache that does what is documented. A page comes when there is memory for it, and a sync
writes back the dirty ones among the first four. -/
def plainPageCache : PageCache (Option ByteMem) where
  grabCachePage := fun memory index pages =>
    match pages index, memory with
    | some _, _ => some pages
    | none, some bytes => some (Function.update pages index (some ⟨bytes, false, false⟩))
    | none, none => none
  copyFromUser := fun _ offset count data bytes => bytes.copyBytes offset count data
  filemapFdatawrite := fun _ pages => (List.range 4).filter fun i => (pages i).any (·.dirty)
  invalidateInodePages2 := fun _ pages i => (pages i).filter (·.dirty)
  vmtruncate := fun _ size pages => (size, fun i =>
    if size ≤ i * pageCacheSize then none
    else (pages i).map fun page =>
      { page with bytes := fun k => if size ≤ i * pageCacheSize + k then 0 else page.bytes k })

theorem plainPageCache_documented : plainPageCache.Documented where
  found := by
    intro memory index pages page held
    simp only [plainPageCache, held]
  fresh := by
    intro memory index pages pages' gone given
    simp only [plainPageCache, gone] at given
    cases memory with
    | none => cases given
    | some bytes => exact ⟨bytes, (Option.some.inj given).symm⟩
  copied := fun _ _ _ _ _ => rfl
  dirty := by
    intro _ pages i mem
    have some := (List.mem_filter.mp mem).2
    cases held : pages i with
    | none => simp [held] at some
    | some page => exact ⟨page, rfl, by simpa [held] using some⟩
  invalidated := by
    intro _ pages i
    show (pages i).filter (·.dirty) = pages i ∨ (pages i).filter (·.dirty) = none ∧ _
    cases held : pages i with
    | none => exact .inl rfl
    | some page =>
      cases dirty : page.dirty with
      | true => exact .inl (by simp [dirty])
      | false =>
        refine .inr ⟨by simp [dirty], fun q same => ?_⟩
        cases same
        exact dirty
  truncatedSize := fun _ _ _ => rfl
  truncated := by
    intro _ size pages i page held
    simp only [plainPageCache] at held
    split at held
    · cases held
    · obtain ⟨was, before, rfl⟩ := Option.map_eq_some_iff.mp held
      exact ⟨was, before, rfl, rfl, fun _ _ => rfl⟩
  kept := by
    intro _ size pages i page held inside
    simp only [plainPageCache, if_neg (Nat.not_le.mpr inside), held]
    rfl

/-- Three bytes of the host, of which a process changes two before the file grows. -/
def smallFile : FileBytes := (⟨0, fun _ => 0, fun _ _ => rfl⟩ : FileBytes).write 0 3 fun _ => 7

def mappedSession : List (CofsEvent (Option ByteMem)) :=
  [.fault 0 (some fun _ => 9) true, .store 0 1 65, .writepage 0 true, .store 0 2 67,
    .setattr (some 5) none (fun _ => true) true, .write 4 3 (fun _ => 66) (some fun _ => 9) true,
    .getattr none true]

theorem cofs_shows_iff_mapped :
    RunOk (CofsEvent.step plainPageCache) (CofsEvent.Allowed plainPageCache) mappedSession
        (openedFile smallFile) ∧
      ∀ p, p <+: mappedSession → (run (CofsEvent.step plainPageCache) p (openedFile smallFile)).Shows
        (run CofsEvent.spec p smallFile) := by
  have allowed : RunOk (CofsEvent.step plainPageCache) (CofsEvent.Allowed plainPageCache)
      mappedSession (openedFile smallFile) :=
    ⟨trivial, .inl (by decide), .inl rfl, .inl (by decide), fun _ _ => .inl rfl, .inl rfl, trivial,
      trivial⟩
  have valid : RunOk (CofsEvent.step plainPageCache) (CofsEvent.Valid plainPageCache) mappedSession
      (openedFile smallFile) := by
    refine ⟨trivial, ⟨by decide, _, rfl, rfl⟩, ⟨_, rfl, rfl⟩, ⟨by decide, _, rfl, rfl⟩, ?_,
      ⟨by decide, by decide, fun _ => rfl⟩, trivial, trivial⟩
    intro n mem
    cases mem
    decide
  exact ⟨allowed, (cofs_shows_iff plainPageCache_documented smallFile (by decide) mappedSession
    valid).mpr allowed⟩

end CoLinux
