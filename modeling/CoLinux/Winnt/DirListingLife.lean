import CoLinux.Kernel.FilesystemTeardown
import CoLinux.Winnt.DirListing

/-!
# The life of a listing

A listing that hangs off an inode is whole, and nothing else is allocated, until the first one
ends: neither the last release nor the freeing of the inode frees the container.
-/

namespace CoLinux

open Lib

/-! ## `co_os_file_getdir` -/

theorem entryBlocks_succ (listing k : Nat) :
    entryBlocks listing (k + 1) = entryBlocks listing k ++ [.entry listing k] := by
  simp [entryBlocks, List.range_succ]

theorem mem_entryBlocks {listing k : Nat} {b : ListingBlock} :
    b ∈ entryBlocks listing k ↔ ∃ i < k, b = .entry listing i := by
  simp [entryBlocks, eq_comm]

theorem entryBlocks_nodup (listing k : Nat) : (entryBlocks listing k).Nodup :=
  List.nodup_range.map fun _ _ same => (ListingBlock.entry.inj same).2

/-- The ledger holds a block for each of the names. -/
def ListsNames (listing : Nat) (l : Ledger ListingBlock) (s : ListingNames) : Prop :=
  s.2 = l.acquireAll (entryBlocks listing s.1.length)

theorem addDirEntry_lists {listing : Nat} {l : Ledger ListingBlock} (e : DirEntry)
    {s : ListingNames} (h : ListsNames listing l s) :
    ListsNames listing l (addDirEntry listing e s).2 := by
  unfold addDirEntry
  split
  · split
    · rw [ListsNames, List.length_append, List.length_singleton, entryBlocks_succ,
        Ledger.acquireAll_append, ← h]
      rfl
    · exact (Ledger.release_acquire _ _).trans h
  · exact h

theorem addDirEntries_lists {listing : Nat} {l : Ledger ListingBlock} (entries : List DirEntry)
    {s : ListingNames} (h : ListsNames listing l s) :
    ListsNames listing l (addDirEntries listing entries s).2 := by
  induction entries generalizing s with
  | nil => exact h
  | cons e entries ih =>
    have first := addDirEntry_lists e h
    rw [addDirEntries]
    by_cases ok : (addDirEntry listing e s).1 = .ok
    · rw [Step.andThen_of_ok ok]
      exact ih first
    · rw [Step.andThen_of_ne ok]
      exact first

/-- A listing that succeeds holds its names, and one that fails holds nothing. -/
theorem coOsFileGetdir_lists (listing : Nat) (query : DirQuery) (l : Ledger ListingBlock) :
    ((coOsFileGetdir listing query l).1 = .ok →
      ListsNames listing l (coOsFileGetdir listing query l).2) ∧
    ((coOsFileGetdir listing query l).1 ≠ .ok → (coOsFileGetdir listing query l).2.2 = l) := by
  unfold coOsFileGetdir
  split
  · exact ⟨fun _ => rfl, fun _ => rfl⟩
  split
  · exact ⟨fun _ => rfl, fun _ => rfl⟩
  split
  · exact ⟨fun _ => rfl, fun _ => rfl⟩
  have all := @addDirEntries_lists listing l query.entries ([], l) rfl
  dsimp only
  split
  · rename_i ok
    exact ⟨fun _ => all, fun failed => absurd ok failed⟩
  · rename_i failed
    refine ⟨fun ok => absurd ok failed, fun _ => ?_⟩
    show (addDirEntries listing query.entries ([], l)).2.2.releaseAll _ = l
    rw [all]
    exact l.releaseAll_acquireAll (entryBlocks_nodup _ _)

namespace DirListings

variable {s : DirListings} {w : FsWorld} {a : InodeId}

/-! ## The invariant -/

/-- The blocks of the listing of an inode. -/
def blocks (w : FsWorld) (a : InodeId) (s : DirListings) : List ListingBlock :=
  match (w.fs.inode a).names with
  | none => []
  | some names => .container (s.listing a) :: entryBlocks (s.listing a) names.list.length

/-- What has to hold of the listings: no request leaves the C language, a listing is there exactly
while its directory is open, nothing is released twice, and what is allocated belongs to a listing
that is there. -/
structure Sound (s : DirListings) : Prop where
  faults : s.faults = []
  present : ∀ w, s.filesystem = some w → ∀ a ∈ w.fs.listInodes,
    ((w.fs.inode a).names.isSome ↔ 0 < s.opens a)
  released : s.ledger.faults = []
  held : ∀ b, b ∈ s.ledger.live ↔
    ∃ w, s.filesystem = some w ∧ ∃ a ∈ w.fs.listInodes, b ∈ s.blocks w a

/-- What holds of the listings of a table. -/
structure Fine (w : FsWorld) (s : DirListings) : Prop where
  shaped : w.fs.Shaped
  faults : s.faults = []
  released : s.ledger.faults = []
  present : ∀ a ∈ w.fs.listInodes, ((w.fs.inode a).names.isSome ↔ 0 < s.opens a)
  counted : ∀ a ∈ w.fs.listInodes, ∀ names, (w.fs.inode a).names = some names →
    names.refcount = Int.bmod (s.opens a) wordSize
  made : ∀ a ∈ w.fs.listInodes, (w.fs.inode a).names.isSome → s.listing a < s.made
  distinct : ∀ a ∈ w.fs.listInodes, ∀ b ∈ w.fs.listInodes, (w.fs.inode a).names.isSome →
    (w.fs.inode b).names.isSome → s.listing a = s.listing b → a = b
  held : ∀ b, b ∈ s.ledger.live ↔ ∃ a ∈ w.fs.listInodes, b ∈ s.blocks w a

/-- `Fine`, or all that was allocated is released. -/
def Inv (s : DirListings) : Prop :=
  match s.filesystem with
  | none => s.faults = [] ∧ s.ledger = Ledger.empty
  | some w => s.Fine w

theorem Inv.sound (inv : s.Inv) : s.Sound := by
  unfold Inv at inv
  split at inv
  · rename_i none
    obtain ⟨faults, ledger⟩ := inv
    refine ⟨faults, fun w some => absurd (none.symm.trans some) (by simp), by rw [ledger]; rfl,
      fun b => ?_⟩
    rw [ledger, none]
    simp [Ledger.empty]
  · rename_i w here
    refine ⟨inv.faults, fun w' here' => ?_, inv.released, fun b => (inv.held b).trans ?_⟩
    · obtain rfl := Option.some.inj (here.symm.trans here')
      exact inv.present
    · rw [here]
      simp

/-! ## What the requests do to the table -/

theorem coMonitorFileSystem_fault {env : FsEnv} {r : ListingRequest} {fault : FsFault}
    (h : w.fs.inoNumToInode r.ino = .error fault) :
    coMonitorFileSystem env r.toFsRequest w = .error fault := by
  cases r <;>
    · simp only [ListingRequest.ino] at h
      simp only [coMonitorFileSystem, ListingRequest.toFsRequest, FsRequest.ino, h]

theorem coMonitorFileSystem_dispatch {env : FsEnv} {r : ListingRequest} {inode : Option InodeId}
    (h : w.fs.inoNumToInode r.ino = .ok inode) :
    coMonitorFileSystem env r.toFsRequest w =
      FsWorld.dispatch env r.toFsRequest inode { w with allocs := 0, ops := [] } := by
  cases r <;>
    · simp only [ListingRequest.ino] at h
      simp only [coMonitorFileSystem, ListingRequest.toFsRequest, FsRequest.ino, h]

/-- A request on a number without an inode leaves the table as it is. -/
theorem coMonitorFileSystem_none {env : FsEnv} {r : ListingRequest}
    (h : w.fs.inoNumToInode r.ino = .ok none) :
    ∃ reply w', coMonitorFileSystem env r.toFsRequest w = .ok (reply, w') ∧ w'.fs = w.fs := by
  rw [coMonitorFileSystem_dispatch h]
  cases r <;> exact ⟨_, _, rfl, rfl⟩

theorem dirRead_table {env : FsEnv} {ino : Int} {size buff filePos : Nat}
    (h : w.fs.inoNumToInode ino = .ok (some a)) :
    ∃ reply w', coMonitorFileSystem env (.dirRead ino size buff filePos) w = .ok (reply, w') ∧
      w'.fs = w.fs := by
  refine (coMonitorFileSystem_dispatch (r := .dirRead ino size buff filePos) h).symm ▸ ?_
  show ∃ reply w', FsWorld.inodeDirReadRequest env (some a) size buff filePos _ = _ ∧ _
  unfold FsWorld.inodeDirReadRequest
  dsimp only
  split <;> exact ⟨_, _, rfl, rfl⟩

theorem dirRelease_table {env : FsEnv} {ino : Int} {names : FilesystemDirNames}
    (h : w.fs.inoNumToInode ino = .ok (some a)) (present : (w.fs.inode a).names = some names) :
    ∃ reply w', coMonitorFileSystem env (.dirRelease ino) w = .ok (reply, w') ∧
      reply.result = 0 ∧ w'.fs = (w.setNames a (if 0 < names.refcount - 1
        then some ⟨names.list, names.refcount - 1⟩ else none)).fs := by
  refine (coMonitorFileSystem_dispatch (r := .dirRelease ino) h).symm ▸ ?_
  show ∃ reply w', FsWorld.inodeDirRelease (some a) _ = _ ∧ _
  unfold FsWorld.inodeDirRelease
  dsimp only
  rw [present]
  exact ⟨_, _, rfl, rfl, rfl⟩

theorem dirRelease_closed {env : FsEnv} {ino : Int}
    (h : w.fs.inoNumToInode ino = .ok (some a)) (absent : (w.fs.inode a).names = none) :
    ∃ reply w', coMonitorFileSystem env (.dirRelease ino) w = .ok (reply, w') ∧
      reply.result ≠ 0 ∧ w'.fs = w.fs := by
  refine (coMonitorFileSystem_dispatch (r := .dirRelease ino) h).symm ▸ ?_
  show ∃ reply w', FsWorld.inodeDirRelease (some a) _ = _ ∧ _
  unfold FsWorld.inodeDirRelease
  dsimp only
  rw [absent]
  exact ⟨_, _, rfl, by decide, rfl⟩

theorem dirOpen_again {env : FsEnv} {ino : Int} {names : FilesystemDirNames}
    (h : w.fs.inoNumToInode ino = .ok (some a)) (present : (w.fs.inode a).names = some names) :
    ∃ reply w', coMonitorFileSystem env (.dirOpen ino) w = .ok (reply, w') ∧
      reply.result = 0 ∧
      w'.fs = (w.setNames a (some ⟨names.list, Filesystem.intSucc names.refcount⟩)).fs := by
  refine (coMonitorFileSystem_dispatch (r := .dirOpen ino) h).symm ▸ ?_
  show ∃ reply w', FsWorld.inodeDirOpen env (some a) _ = _ ∧ _
  unfold FsWorld.inodeDirOpen
  dsimp only
  rw [present]
  exact ⟨_, _, rfl, rfl, rfl⟩

theorem translateCode_ne {rc : CoRc} (h : rc ≠ .ok) : translateCode rc ≠ 0 := by
  cases rc <;> first | exact absurd rfl h | decide

theorem dirOpen_first {env : FsEnv} {ino : Int} {found : Step ListingNames}
    (h : w.fs.inoNumToInode ino = .ok (some a)) (absent : (w.fs.inode a).names = none) :
    ∃ reply w', coMonitorFileSystem (answering env found) (.dirOpen ino) w = .ok (reply, w') ∧
      if env.alloc 0 ∧ env.alloc 1 ∧ found.1 = .ok then
        reply.result = 0 ∧ w'.fs = (w.setNames a (some ⟨found.2.1, 1⟩)).fs
      else reply.result ≠ 0 ∧ w'.fs = w.fs := by
  refine (coMonitorFileSystem_dispatch (r := .dirOpen ino) h).symm ▸ ?_
  show ∃ reply w', FsWorld.inodeDirOpen _ (some a) _ = _ ∧ _
  unfold FsWorld.inodeDirOpen FsWorld.flatModeGetdir FsWorld.onPath FsWorld.coOsMalloc
  dsimp only
  rw [absent]
  by_cases container : env.alloc 0
  · by_cases path : env.alloc 1
    · by_cases ok : found.1 = .ok
      · simp [answering, container, path, ok, FsWorld.fileOp, FsWorld.reply, FsWorld.setNames,
          translateCode]
      · simp [answering, container, path, ok, FsWorld.fileOp, FsWorld.reply, translateCode_ne]
    · simp [answering, container, path, FsWorld.failed, FsWorld.reply, translateCode]
  · simp [answering, container, FsWorld.reply, translateCode]

/-! ## Steps that end no listing -/

theorem setNames_names (w : FsWorld) (a x : InodeId) (names : Option FilesystemDirNames) :
    ((w.setNames a names).fs.inode x).names = if x = a then names else (w.fs.inode x).names := by
  by_cases same : x = a
  · subst same
    simp [FsWorld.setNames, Filesystem.modifyInode]
  · simp [FsWorld.setNames, Filesystem.modifyInode, same]

theorem blocks_none (absent : (w.fs.inode a).names = none) : s.blocks w a = [] := by
  rw [blocks, absent]

theorem blocks_some {names : FilesystemDirNames} (present : (w.fs.inode a).names = some names) :
    s.blocks w a = .container (s.listing a) :: entryBlocks (s.listing a) names.list.length := by
  rw [blocks, present]

theorem held_congr {s s' : DirListings} {w w' : FsWorld}
    (held : ∀ b, b ∈ s.ledger.live ↔ ∃ a ∈ w.fs.listInodes, b ∈ s.blocks w a)
    (ledger : s'.ledger = s.ledger) (list : w'.fs.listInodes = w.fs.listInodes)
    (blocks : ∀ a ∈ w.fs.listInodes, s'.blocks w' a = s.blocks w a) (b : ListingBlock) :
    b ∈ s'.ledger.live ↔ ∃ a ∈ w'.fs.listInodes, b ∈ s'.blocks w' a := by
  rw [ledger, held, list]
  exact exists_congr fun a => and_congr_right fun live => by rw [blocks a live]

/-- Nothing that the listings depend on has changed. -/
theorem Fine.sameTable {w' : FsWorld} (fine : s.Fine w) (same : w'.fs = w.fs) : s.Fine w' := by
  obtain ⟨shaped, faults, released, present, counted, made, distinct, held⟩ := fine
  refine ⟨same ▸ shaped, faults, released, same ▸ present, same ▸ counted, same ▸ made,
    same ▸ distinct, held_congr held rfl (by rw [same]) fun a _ => ?_⟩
  rw [blocks, blocks, same]

/-- The count of a listing that stays is changed. -/
theorem Fine.recount {w' : FsWorld} {names : FilesystemDirNames} {k : Nat} {c : Int}
    (fine : s.Fine w) (old : (w.fs.inode a).names = some names)
    (same : w'.fs = (w.setNames a (some ⟨names.list, c⟩)).fs) (pos : 0 < k)
    (counts : c = Int.bmod k wordSize) :
    Fine w' { s with opens := Function.update s.opens a k } := by
  obtain ⟨shaped, faults, released, present, counted, made, distinct, held⟩ := fine
  have new : (w'.fs.inode a).names = some ⟨names.list, c⟩ := by
    rw [same, setNames_names, if_pos rfl]
  have kept {x : InodeId} (h : x ≠ a) : (w'.fs.inode x).names = (w.fs.inode x).names := by
    rw [same, setNames_names, if_neg h]
  have list : w'.fs.listInodes = w.fs.listInodes := by
    rw [same]
    rfl
  have isSome (x : InodeId) : (w'.fs.inode x).names.isSome = (w.fs.inode x).names.isSome := by
    by_cases this : x = a
    · rw [this, new, old]
      rfl
    · rw [kept this]
  refine ⟨?_, faults, released, fun x hx => ?_, fun x hx others eq => ?_, ?_, ?_,
    held_congr held rfl list fun x _ => ?_⟩
  · rw [same]
    exact shaped.modifyNames a _
  · rw [isSome]
    by_cases this : x = a
    · subst this
      simpa [old] using pos
    · simpa [this] using present x (list ▸ hx)
  · by_cases this : x = a
    · subst this
      obtain rfl := Option.some.inj (new.symm.trans eq)
      simpa using counts
    · simpa [this] using counted x (list ▸ hx) others (kept this ▸ eq)
  · simp only [list, isSome]
    exact made
  · simp only [list, isSome]
    exact distinct
  · by_cases this : x = a
    · rw [this, blocks_some new, blocks_some old]
    · rw [blocks, kept this, blocks]

/-- A number is spent on a listing that is not kept. -/
theorem Fine.spend (fine : s.Fine w) (absent : (w.fs.inode a).names = none) :
    Fine w { s with listing := Function.update s.listing a s.made, made := s.made + 1 } := by
  obtain ⟨shaped, faults, released, present, counted, made, distinct, held⟩ := fine
  have other {x : InodeId} (some : (w.fs.inode x).names.isSome) : x ≠ a := by
    rintro rfl
    rw [absent] at some
    contradiction
  refine ⟨shaped, faults, released, present, counted, fun x hx some => ?_,
    fun x hx y hy some some' eq => ?_, held_congr held rfl rfl fun x _ => ?_⟩
  · simpa [other some] using Nat.lt_succ_of_lt (made x hx some)
  · refine distinct x hx y hy some some' ?_
    simpa [other some, other some'] using eq
  · by_cases this : x = a
    · rw [this, blocks_none absent, blocks_none absent]
    · simp only [blocks, Function.update_of_ne this]

/-- A new listing. -/
theorem Fine.first {w' : FsWorld} {found : List FilesystemName} (fine : s.Fine w)
    (live : a ∈ w.fs.listInodes) (absent : (w.fs.inode a).names = none)
    (same : w'.fs = (w.setNames a (some ⟨found, 1⟩)).fs) :
    Fine w' { s with
      listing := Function.update s.listing a s.made
      made := s.made + 1
      opens := Function.update s.opens a (s.opens a + 1)
      ledger := (s.ledger.acquire (.container s.made)).acquireAll
        (entryBlocks s.made found.length) } := by
  obtain ⟨shaped, faults, released, present, counted, made, distinct, held⟩ := fine
  have new : (w'.fs.inode a).names = some ⟨found, 1⟩ := by
    rw [same, setNames_names, if_pos rfl]
  have kept {x : InodeId} (h : x ≠ a) : (w'.fs.inode x).names = (w.fs.inode x).names := by
    rw [same, setNames_names, if_neg h]
  have list : w'.fs.listInodes = w.fs.listInodes := by
    rw [same]
    rfl
  have closed : s.opens a = 0 := by
    have := present a live
    rw [absent] at this
    simpa using this
  refine ⟨?_, faults, ?_, fun x hx => ?_, fun x hx others eq => ?_, fun x hx some => ?_,
    fun x hx y hy some some' eq => ?_, fun b => ?_⟩
  · rw [same]
    exact shaped.modifyNames a _
  · rw [Ledger.acquireAll_faults]
    exact released
  · by_cases this : x = a
    · subst this
      simp [new]
    · rw [kept this]
      simpa [this] using present x (list ▸ hx)
  · by_cases this : x = a
    · subst this
      obtain rfl := Option.some.inj (new.symm.trans eq)
      simp only [Function.update_self, closed]
      decide
    · simpa [this] using counted x (list ▸ hx) others (kept this ▸ eq)
  · by_cases this : x = a
    · subst this
      simp
    · rw [kept this] at some
      simpa [this] using Nat.lt_succ_of_lt (made x (list ▸ hx) some)
  · have number {z : InodeId} (hz : z ∈ w.fs.listInodes) (ne : z ≠ a)
        (some : (w'.fs.inode z).names.isSome) : s.listing z ≠ s.made :=
      Nat.ne_of_lt (made z hz (kept ne ▸ some))
    rw [list] at hx hy
    by_cases hxa : x = a
    · subst hxa
      by_cases hya : y = x
      · exact hya.symm
      · exact absurd eq.symm (by simpa [hya] using number hy hya some')
    · by_cases hya : y = a
      · subst hya
        exact absurd eq (by simpa [hxa] using number hx hxa some)
      · refine distinct x hx y hy (kept hxa ▸ some) (kept hya ▸ some') ?_
        simpa [hxa, hya] using eq
  · have own : blocks w' a { s with
        listing := Function.update s.listing a s.made
        made := s.made + 1
        opens := Function.update s.opens a (s.opens a + 1)
        ledger := (s.ledger.acquire (.container s.made)).acquireAll
          (entryBlocks s.made found.length) } =
        .container s.made :: entryBlocks s.made found.length := by
      rw [blocks_some new]
      simp
    rw [Ledger.mem_acquireAll, Ledger.acquire_live, List.mem_cons, held, list]
    constructor
    · rintro (entry | container | ⟨x, hx, hb⟩)
      · exact ⟨a, live, own ▸ List.mem_cons_of_mem _ entry⟩
      · exact ⟨a, live, own ▸ container ▸ List.mem_cons_self⟩
      · have ne : x ≠ a := by
          rintro rfl
          rw [blocks_none absent] at hb
          exact absurd hb List.not_mem_nil
        refine ⟨x, hx, ?_⟩
        simpa only [blocks, kept ne, Function.update_of_ne ne] using hb
    · rintro ⟨x, hx, hb⟩
      by_cases this : x = a
      · rw [this, own, List.mem_cons] at hb
        exact hb.elim (fun container => .inr (.inl container)) .inl
      · refine .inr (.inr ⟨x, hx, ?_⟩)
        simpa only [blocks, kept this, Function.update_of_ne this] using hb

theorem Fine.inFilesystem (fine : s.Fine w) : Inv { s with filesystem := some w } := by
  obtain ⟨shaped, faults, released, present, counted, made, distinct, held⟩ := fine
  exact ⟨shaped, faults, released, present, counted, made, distinct, held⟩

/-! ## What freeing inodes frees of listings -/

theorem freedBlocks_nil {after : Ledger FsBlock}
    (kept : ∀ a ∈ w.fs.listInodes, (w.fs.inode a).names ≠ none →
      .entries a ∈ after.live ∧ .names a ∈ after.live) : s.freedBlocks w after = [] := by
  refine List.flatMap_eq_nil_iff.mpr fun a live => ?_
  split
  · rfl
  · rename_i names present
    obtain ⟨entries, container⟩ := kept a live (by simp [present])
    rw [if_pos entries, if_pos container]
    rfl

theorem container_not_freed {after : Ledger FsBlock}
    (kept : ∀ a ∈ w.fs.listInodes, (w.fs.inode a).names ≠ none → .names a ∈ after.live) (n : Nat) :
    .container n ∉ s.freedBlocks w after := by
  intro freed
  obtain ⟨a, live, freed⟩ := List.mem_flatMap.mp freed
  split at freed
  · exact List.not_mem_nil freed
  · rename_i names present
    rw [if_pos (kept a live (by simp [present])), List.append_nil] at freed
    split at freed
    · exact List.not_mem_nil freed
    · obtain ⟨i, -, same⟩ := mem_entryBlocks.mp freed
      contradiction

/-- A container is lost when no inode has its listing any more. -/
theorem lost_container {s' : DirListings} {n : Nat} (live : .container n ∈ s'.ledger.live)
    (gone : ∀ w, s'.filesystem = some w → ∀ a ∈ w.fs.listInodes,
      (w.fs.inode a).names ≠ none → s'.listing a ≠ n) : ¬s'.Sound := by
  intro sound
  obtain ⟨w, here, a, ha, hb⟩ := (sound.held _).mp live
  unfold blocks at hb
  split at hb
  · exact List.not_mem_nil hb
  · rename_i names present
    rcases List.mem_cons.mp hb with same | entry
    · exact gone w here a ha (by simp [present]) (ListingBlock.container.inj same).symm
    · obtain ⟨i, -, same⟩ := mem_entryBlocks.mp entry
      contradiction

theorem Fine.container_live (fine : s.Fine w) (live : a ∈ w.fs.listInodes)
    (present : (w.fs.inode a).names ≠ none) : .container (s.listing a) ∈ s.ledger.live := by
  obtain ⟨names, present⟩ := Option.ne_none_iff_exists'.mp present
  exact (fine.held _).mpr ⟨a, live, blocks_some present ▸ List.mem_cons_self⟩

end DirListings

/-- `free_inode` keeps every container. -/
theorem FsTeardown.freeInode_names {t : FsTeardown} {a x : InodeId}
    (held : .names x ∈ t.ledger.live) : .names x ∈ (t.freeInode a).ledger.live := by
  rw [freeInode_unlinked]
  refine (Ledger.mem_releaseAll (Filesystem.names_not_freed _ a x)).mpr ?_
  rwa [unlinkInode_live]

theorem FsTeardown.freeList_names {t : FsTeardown} {x : InodeId} (turns : Nat)
    (held : .names x ∈ t.ledger.live) : .names x ∈ (freeList turns t).ledger.live := by
  induction turns generalizing t with
  | zero => exact held
  | succ turns ih =>
    unfold freeList
    split
    · exact held
    · exact ih (freeInode_names held)

namespace DirListings

variable {s : DirListings} {w : FsWorld} {a : InodeId}

theorem names_held (live : a ∈ w.fs.listInodes) (present : (w.fs.inode a).names ≠ none) :
    .names a ∈ w.fs.teardown.ledger.live :=
  List.mem_flatMap.mpr ⟨a, live, Filesystem.names_block present a⟩

theorem entries_held (live : a ∈ w.fs.listInodes) (present : (w.fs.inode a).names ≠ none) :
    .entries a ∈ w.fs.teardown.ledger.live := by
  refine List.mem_flatMap.mpr ⟨a, live, ?_⟩
  unfold Inode.blocks
  rw [if_pos (Option.isSome_iff_ne_none.mpr present)]
  simp

theorem forget_table {env : FsEnv} {ino : Int} (shaped : w.fs.Shaped)
    (h : w.fs.inoNumToInode ino = .ok (some a)) :
    ∃ reply w', coMonitorFileSystem env (.forget ino) w = .ok (reply, w') ∧
      w'.fs = (w.fs.teardown.freeInodeWithChildren a).fs := by
  obtain ⟨live, -⟩ := Filesystem.inoNumToInode_some shaped h
  obtain ⟨trims, -⟩ := FsTeardown.freeInodeWithChildren_spec (t := w.fs.teardown) shaped
    (FsTeardown.teardown_held shaped) live
  refine (coMonitorFileSystem_dispatch (r := .forget ino) h).symm ▸ ?_
  show ∃ reply w', FsWorld.inodeForget (some a) _ = _ ∧ _
  unfold FsWorld.inodeForget
  dsimp only
  rw [if_pos trims.held.faults]
  exact ⟨_, _, rfl, rfl⟩

/-- Inodes without a listing are forgotten. -/
theorem Fine.forget {w' : FsWorld} (fine : s.Fine w) (live : a ∈ w.fs.listInodes)
    (closed : ∀ x ∈ w.fs.listInodes, Below w.fs.parentOf a x → (w.fs.inode x).names = none)
    (same : w'.fs = (w.fs.teardown.freeInodeWithChildren a).fs) :
    s.freedBlocks w (w.fs.teardown.freeInodeWithChildren a).ledger = [] ∧ s.Fine w' := by
  obtain ⟨shaped, faults, released, present, counted, made, distinct, held⟩ := fine
  obtain ⟨trims, left⟩ := FsTeardown.freeInodeWithChildren_spec (t := w.fs.teardown) shaped
    (FsTeardown.teardown_held shaped) live
  have freed := (Filesystem.freedBelow_iff shaped live).mpr closed
  have names (x : InodeId) : (w'.fs.inode x).names = (w.fs.inode x).names := by
    rw [same]
    exact trims.names x
  have left' (x : InodeId) : x ∈ w'.fs.listInodes ↔
      x ∈ w.fs.listInodes ∧ ¬Below w.fs.parentOf a x := by
    rw [same]
    exact left x
  have blocks (x : InodeId) : s.blocks w' x = s.blocks w x := by
    rw [DirListings.blocks, names, DirListings.blocks]
  constructor
  · refine freedBlocks_nil fun x hx some => ?_
    have apart : ¬Below w.fs.parentOf a x := fun below => some (closed x hx below)
    exact ⟨(freed.live _).mpr ⟨entries_held hx some, apart⟩,
      (freed.live _).mpr ⟨names_held hx some, apart⟩⟩
  · refine ⟨same ▸ trims.shaped, faults, released, fun x hx => ?_, fun x hx others eq => ?_,
      fun x hx some => ?_, fun x hx y hy some some' eq => ?_, fun b => (held b).trans ?_⟩
    · rw [names]
      exact present x ((left' x).mp hx).1
    · exact counted x ((left' x).mp hx).1 others (names x ▸ eq)
    · exact made x ((left' x).mp hx).1 (names x ▸ some)
    · exact distinct x ((left' x).mp hx).1 y ((left' y).mp hy).1 (names x ▸ some)
        (names y ▸ some') eq
    · constructor
      · rintro ⟨x, hx, hb⟩
        refine ⟨x, (left' x).mpr ⟨hx, fun below => ?_⟩, blocks x ▸ hb⟩
        rw [blocks_none (closed x hx below)] at hb
        exact List.not_mem_nil hb
      · rintro ⟨x, hx, hb⟩
        exact ⟨x, ((left' x).mp hx).1, blocks x ▸ hb⟩

/-! ## One step -/

/-- A request on the inode `a` ends no listing. -/
def EndsNone (w : FsWorld) (a : InodeId) : ListingRequest → Prop
  | .dirOpen _ | .dirRead .. => True
  | .dirRelease _ => ∀ names, (w.fs.inode a).names = some names → 1 < names.refcount
  | .forget _ => ∀ x ∈ w.fs.listInodes, Below w.fs.parentOf a x → (w.fs.inode x).names = none

/-- An event ends no listing, and the number of a request can be looked up. -/
def Keeps (s : DirListings) (e : ListingEvent) : Prop :=
  ∀ w, s.filesystem = some w →
    match e with
    | .request _ _ r => ∃ inode, w.fs.inoNumToInode r.ino = .ok inode ∧
        ∀ a, inode = some a → EndsNone w a r
    | .teardown => ∀ a ∈ w.fs.listInodes, (w.fs.inode a).names = none

theorem dirOpen_inv {env : FsEnv} {query : DirQuery} {ino : Int} (fine : s.Fine w)
    (found : w.fs.inoNumToInode ino = .ok (some a)) :
    (s.request env query (.dirOpen ino) w).Inv := by
  obtain ⟨live, -⟩ := Filesystem.inoNumToInode_some fine.shaped found
  unfold request
  obtain ⟨onOk, onFail⟩ := coOsFileGetdir_lists s.made query (s.ledger.acquire (.container s.made))
  generalize coOsFileGetdir s.made query (s.ledger.acquire (.container s.made)) = listing at *
  rcases Option.eq_none_or_eq_some (w.fs.inode a).names with absent | ⟨names, present⟩
  · obtain ⟨reply, w', answered, result⟩ := @dirOpen_first w a env ino listing found absent
    simp only [ListingRequest.toFsRequest, ListingRequest.ino, answered, found, account, absent,
      Option.isSome_none, Bool.false_eq_true, if_false, count, makeListing]
    by_cases made : env.alloc 0 ∧ env.alloc 1 ∧ listing.1 = .ok
    · obtain ⟨answer, table⟩ := (if_pos made ▸ result :)
      obtain ⟨container, path, ok⟩ := made
      have first := fine.first live absent table
      rw [← onOk ok] at first
      simpa [answer, container, path, ok] using first.inFilesystem
    · obtain ⟨answer, table⟩ := (if_neg made ▸ result :)
      rw [if_neg answer]
      by_cases container : env.alloc 0
      · have spent := (fine.spend absent).sameTable table
        have ledger : (if env.alloc 1 = false then
            (s.ledger.acquire (.container s.made)).release (.container s.made)
          else if listing.1 = .ok then listing.2.2
          else listing.2.2.release (.container s.made)) = s.ledger := by
          by_cases path : env.alloc 1
          · have failed : listing.1 ≠ .ok := fun ok => made ⟨container, path, ok⟩
            rw [if_neg (by simp [path]), if_neg failed, onFail failed, Ledger.release_acquire]
          · rw [if_pos (by simpa using path), Ledger.release_acquire]
        rw [if_pos container, ledger]
        exact spent.inFilesystem
      · rw [if_neg container]
        exact (fine.sameTable table).inFilesystem
  · obtain ⟨reply, w', answered, result, table⟩ := @dirOpen_again w a (answering env listing) ino
      names found present
    simp only [ListingRequest.toFsRequest, ListingRequest.ino, answered, found, account, present,
      Option.isSome_some, if_true, count, result]
    refine (fine.recount present table (Nat.succ_pos _) ?_).inFilesystem
    rw [Filesystem.intSucc, fine.counted a live names present, Int.bmod_add_bmod]
    rfl

theorem dirRelease_inv {env : FsEnv} {query : DirQuery} {ino : Int} (fine : s.Fine w)
    (found : w.fs.inoNumToInode ino = .ok (some a))
    (stays : ∀ names, (w.fs.inode a).names = some names → 1 < names.refcount) :
    (s.request env query (.dirRelease ino) w).Inv := by
  obtain ⟨live, -⟩ := Filesystem.inoNumToInode_some fine.shaped found
  unfold request
  generalize coOsFileGetdir s.made query (s.ledger.acquire (.container s.made)) = listing
  rcases Option.eq_none_or_eq_some (w.fs.inode a).names with absent | ⟨names, present⟩
  · obtain ⟨reply, w', answered, result, table⟩ := @dirRelease_closed w a (answering env listing)
      ino found absent
    simp only [ListingRequest.toFsRequest, ListingRequest.ino, answered, found, account, absent,
      count, result, if_false]
    exact (fine.sameTable table).inFilesystem
  · obtain ⟨reply, w', answered, result, table⟩ := @dirRelease_table w a (answering env listing)
      ino names found present
    have more := stays names present
    have counted := fine.counted a live names present
    have still : 0 < names.refcount - 1 := by omega
    rw [if_pos still] at table
    simp only [ListingRequest.toFsRequest, ListingRequest.ino, answered, found, account, present,
      count, result, if_true, still]
    have opened : 2 ≤ s.opens a := by
      by_contra few
      have : s.opens a = 0 ∨ s.opens a = 1 := by omega
      rcases this with zero | one
      · rw [counted, zero] at more
        exact absurd more (by decide)
      · rw [counted, one] at more
        exact absurd more (by decide)
    refine (fine.recount present table (by omega) ?_).inFilesystem
    have below := @Int.bmod_lt (s.opens a) wordSize (by decide)
    rw [← counted] at below
    have fewer : ((s.opens a - 1 : Nat) : Int) = s.opens a + (-1) := by omega
    rw [fewer, ← Int.bmod_add_bmod, ← counted]
    simp only [wordSize] at *
    rw [Int.bmod_eq_of_le] <;> omega

theorem request_inv {env : FsEnv} {query : DirQuery} {r : ListingRequest} (fine : s.Fine w)
    {inode : Option InodeId} (found : w.fs.inoNumToInode r.ino = .ok inode)
    (keeps : ∀ a, inode = some a → EndsNone w a r) : (s.request env query r w).Inv := by
  cases inode with
  | none =>
    unfold request
    generalize coOsFileGetdir s.made query (s.ledger.acquire (.container s.made)) = listing
    obtain ⟨reply, w', answered, table⟩ := @coMonitorFileSystem_none w (answering env listing) r
      found
    simp only [answered, found]
    exact (fine.sameTable table).inFilesystem
  | some a =>
    have keeps := keeps a rfl
    cases r with
    | dirOpen ino => exact dirOpen_inv fine found
    | dirRead ino size buff filePos =>
      unfold request
      generalize coOsFileGetdir s.made query (s.ledger.acquire (.container s.made)) = listing
      obtain ⟨reply, w', answered, table⟩ := @dirRead_table w a (answering env listing) ino size
        buff filePos found
      simp only [ListingRequest.toFsRequest, answered, found, account, count]
      exact (fine.sameTable table).inFilesystem
    | dirRelease ino => exact dirRelease_inv fine found keeps
    | forget ino =>
      obtain ⟨live, -⟩ := Filesystem.inoNumToInode_some fine.shaped found
      unfold request
      generalize coOsFileGetdir s.made query (s.ledger.acquire (.container s.made)) = listing
      obtain ⟨reply, w', answered, table⟩ := @forget_table w a (answering env listing) ino
        fine.shaped found
      obtain ⟨nothing, fine'⟩ := fine.forget live keeps table
      simp only [ListingRequest.toFsRequest, answered, found, account, count, nothing]
      exact fine'.inFilesystem

theorem Inv.step_inv (inv : s.Inv) {e : ListingEvent} (keeps : s.Keeps e) : (s.step e).Inv := by
  unfold step
  split
  · exact inv
  rename_i w here
  have fine : s.Fine w := by
    unfold Inv at inv
    rwa [here] at inv
  have keeps := keeps w here
  cases e with
  | request env query r =>
    obtain ⟨inode, found, keeps⟩ := keeps
    exact request_inv fine found keeps
  | teardown =>
    have nothing : s.freedBlocks w w.fs.teardown.coMonitorFileSystemFree.ledger = [] :=
      freedBlocks_nil fun a live present => absurd (keeps a live) present
    unfold coMonitorFileSystemFree Inv
    rw [nothing]
    refine ⟨fine.faults, ?_⟩
    have live : s.ledger.live = [] := List.eq_nil_iff_forall_not_mem.mpr fun b hb => by
      obtain ⟨a, live, hb⟩ := (fine.held b).mp hb
      rw [blocks_none (keeps a live)] at hb
      exact List.not_mem_nil hb
    show Ledger.mk s.ledger.live s.ledger.faults = _
    rw [live, fine.released]
    rfl

/-! ## Steps that end a listing -/

theorem request_fault {env : FsEnv} {query : DirQuery} {r : ListingRequest} {fault : FsFault}
    (h : w.fs.inoNumToInode r.ino = .error fault) : ¬(s.request env query r w).Sound := by
  intro sound
  have := sound.faults
  unfold request at this
  simp only [coMonitorFileSystem_fault h] at this
  simp at this

/-- The last release frees the names and loses the container. -/
theorem dirRelease_breaks {env : FsEnv} {query : DirQuery} {ino : Int} {names : FilesystemDirNames}
    (fine : s.Fine w) (found : w.fs.inoNumToInode ino = .ok (some a))
    (present : (w.fs.inode a).names = some names) (last : ¬1 < names.refcount) :
    ¬(s.request env query (.dirRelease ino) w).Sound := by
  obtain ⟨live, -⟩ := Filesystem.inoNumToInode_some fine.shaped found
  unfold request
  generalize coOsFileGetdir s.made query (s.ledger.acquire (.container s.made)) = listing
  obtain ⟨reply, w', answered, result, table⟩ := @dirRelease_table w a (answering env listing)
    ino names found present
  have ends : ¬0 < names.refcount - 1 := by omega
  rw [if_neg ends] at table
  simp only [ListingRequest.toFsRequest, ListingRequest.ino, answered, found, account, present,
    count, result, if_true, ends, if_false]
  refine lost_container (n := s.listing a) ?_ ?_
  · refine (Ledger.mem_releaseAll fun entry => ?_).mpr (fine.container_live live (by simp [present]))
    obtain ⟨i, -, same⟩ := mem_entryBlocks.mp entry
    contradiction
  · rintro _ ⟨rfl⟩ x hx others same
    rw [table] at hx others
    have hx : x ∈ w.fs.listInodes := hx
    rw [setNames_names] at others
    have ne : x ≠ a := by
      rintro rfl
      exact others (if_pos rfl)
    rw [if_neg ne] at others
    exact ne (fine.distinct x hx a live (Option.isSome_iff_ne_none.mpr others) (by simp [present])
      same)

/-- Forgetting a directory that is open loses its container. -/
theorem forget_breaks {env : FsEnv} {query : DirQuery} {ino : Int} {x : InodeId}
    (fine : s.Fine w) (found : w.fs.inoNumToInode ino = .ok (some a)) (live : x ∈ w.fs.listInodes)
    (below : Below w.fs.parentOf a x) (present : (w.fs.inode x).names ≠ none) :
    ¬(s.request env query (.forget ino) w).Sound := by
  obtain ⟨liveA, -⟩ := Filesystem.inoNumToInode_some fine.shaped found
  obtain ⟨trims, left⟩ := FsTeardown.freeInodeWithChildren_spec (t := w.fs.teardown) fine.shaped
    (FsTeardown.teardown_held fine.shaped) liveA
  unfold request
  generalize coOsFileGetdir s.made query (s.ledger.acquire (.container s.made)) = listing
  obtain ⟨reply, w', answered, table⟩ := @forget_table w a (answering env listing) ino fine.shaped
    found
  simp only [ListingRequest.toFsRequest, ListingRequest.ino, answered, found, account, count]
  refine lost_container (n := s.listing x) ?_ ?_
  · refine (Ledger.mem_releaseAll (container_not_freed (fun y hy some => ?_) _)).mpr
      (fine.container_live live present)
    exact (trims.ledger _).mpr ⟨names_held hy some, fun z _ freed =>
      absurd freed (Filesystem.names_not_freed _ z y)⟩
  · rintro _ ⟨rfl⟩ y hy others same
    rw [table] at hy others
    rw [trims.names] at others
    obtain ⟨hy, apart⟩ := (left y).mp hy
    have := fine.distinct y hy x live (Option.isSome_iff_ne_none.mpr others)
      (Option.isSome_iff_ne_none.mpr present) same
    exact apart (this ▸ below)

/-- So does freeing the file system while a directory is open. -/
theorem teardown_breaks (fine : s.Fine w) (live : a ∈ w.fs.listInodes)
    (present : (w.fs.inode a).names ≠ none) : ¬(s.coMonitorFileSystemFree w).Sound := by
  refine lost_container (n := s.listing a) ?_ fun w' here => ?_
  · refine (Ledger.mem_releaseAll (container_not_freed (fun y hy some => ?_) _)).mpr
      (fine.container_live live present)
    exact FsTeardown.freeList_names _ (names_held hy some)
  · cases here

theorem Inv.step_breaks (inv : s.Inv) {e : ListingEvent} (ends : ¬s.Keeps e) :
    ¬(s.step e).Sound := by
  intro sound
  refine ends fun w here => ?_
  have fine : s.Fine w := by
    unfold Inv at inv
    rwa [here] at inv
  unfold step at sound
  rw [here] at sound
  cases e with
  | request env query r =>
    have sound : (s.request env query r w).Sound := sound
    cases found : w.fs.inoNumToInode r.ino with
    | error fault => exact absurd sound (request_fault found)
    | ok inode =>
      refine ⟨inode, found, ?_⟩
      rintro a rfl
      cases r with
      | dirOpen ino => trivial
      | dirRead ino size buff filePos => trivial
      | dirRelease ino =>
        intro names present
        by_contra last
        exact dirRelease_breaks fine found present last sound
      | forget ino =>
        intro x live below
        by_contra present
        exact forget_breaks fine found live below present sound
  | teardown =>
    intro a live
    by_contra present
    exact teardown_breaks fine live present sound

theorem start_inv (shaped : w.fs.Shaped)
    (closed : ∀ a ∈ w.fs.listInodes, (w.fs.inode a).names = none) : (start w).Inv := by
  refine ⟨shaped, rfl, rfl, fun a live => ?_, fun a live names present => ?_, fun a live some => ?_,
    fun a live b _ some => ?_, fun b => ⟨fun held => absurd held List.not_mem_nil, ?_⟩⟩
  · simp [closed a live, start]
  · rw [closed a live] at present
    contradiction
  · rw [closed a live] at some
    contradiction
  · rw [closed a live] at some
    contradiction
  · rintro ⟨a, live, held⟩
    rw [blocks_none (closed a live)] at held
    exact absurd held List.not_mem_nil

end DirListings

/-- From a tree of inodes in which no directory is open, the listings are sound in every state of
a run if and only if the run never ends a listing: no open directory is released for the last
time, is forgotten, or is there when the file system is freed. -/
theorem dirListings_sound_iff (w : FsWorld) (shaped : w.fs.Shaped)
    (closed : ∀ a ∈ w.fs.listInodes, (w.fs.inode a).names = none) (events : List ListingEvent) :
    (∀ p, p <+: events → (run DirListings.step p (DirListings.start w)).Sound) ↔
      RunOk DirListings.step DirListings.Keeps events (DirListings.start w) :=
  forall_prefix_iff_runOk_of_breaks (fun _ inv => inv.sound) (fun _ _ inv => inv.step_inv)
    (fun _ _ inv => inv.step_breaks) (DirListings.start_inv shaped closed)

/-- The root is opened, read and opened again, and one of the two is released. -/
def rootOpenedTwice : List ListingEvent :=
  let query : DirQuery := ⟨.ok, .success, true, [⟨false, [0x61], .ok, true⟩]⟩
  [.request grantingEnv query (.dirOpen 1), .request grantingEnv query (.dirRead 1 4096 0 0),
    .request grantingEnv query (.dirOpen 1), .request grantingEnv query (.dirRelease 1)]

theorem dirListings_sound_rootOpenedTwice :
    (run DirListings.step rootOpenedTwice
      (DirListings.start (coMonitorFileSystemInit [0x43]))).Sound := by
  refine (dirListings_sound_iff (coMonitorFileSystemInit [0x43])
    (coMonitorFileSystemInit_shaped [0x43]) (by decide) rootOpenedTwice).mpr
    ⟨?_, ?_, ?_, ?_, trivial⟩ rootOpenedTwice (List.prefix_refl _)
  · rintro _ ⟨rfl⟩
    exact ⟨some 0, rfl, fun _ _ => trivial⟩
  · rintro _ ⟨rfl⟩
    exact ⟨some 0, rfl, fun _ _ => trivial⟩
  · rintro _ ⟨rfl⟩
    exact ⟨some 0, rfl, fun _ _ => trivial⟩
  · rintro _ ⟨rfl⟩
    refine ⟨some 0, rfl, ?_⟩
    rintro _ ⟨rfl⟩ names ⟨rfl⟩
    decide

/-- The root is opened and released: its container stays allocated. -/
theorem rootReleased_lost :
    ¬(run DirListings.step
      [.request grantingEnv ⟨.ok, .success, true, []⟩ (.dirOpen 1),
        .request grantingEnv ⟨.ok, .success, true, []⟩ (.dirRelease 1)]
      (DirListings.start (coMonitorFileSystemInit [0x43]))).Sound := by
  refine DirListings.lost_container (n := 0) (by decide +kernel) ?_
  rintro _ ⟨rfl⟩ a live
  obtain rfl := List.mem_singleton.mp live
  exact fun open' => absurd rfl open'

end CoLinux
