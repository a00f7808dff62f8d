import CoLinux.Kernel.FilesystemRequests
import CoLinux.Kernel.Proofs.FilesystemTree

/-!
# Requests that name no inode

`co_monitor_file_system` looks a request's inode number up and hands the result to the
request's function, also when it is `NULL`. Some functions check for that; for the others
`co_os_fs_inode_to_path` builds the path of the base directory itself.
-/

namespace CoLinux

namespace Filesystem

/-- `ino` is the number of no live inode. -/
def NamesNoInode (fs : Filesystem) (ino : Int) : Prop :=
  if ino = 1 then ∀ r, fs.root = some r → r ∉ fs.listInodes
  else ∀ a ∈ fs.listInodes, (fs.inode a).number ≠ ino

/-- Looking `ino` up stays inside `inode_hashes` and away from a root that was freed. -/
def InTable (fs : Filesystem) (ino : Int) : Prop :=
  if ino = 1 then ∀ r, fs.root = some r → r ∈ fs.listInodes
  else 0 ≤ ino.tmod coFsHashTableSize

/-- The buckets hold the inodes of the list. -/
def Hashed (fs : Filesystem) : Prop :=
  ∀ i a, a ∈ fs.inodeHashes i ↔
    a ∈ fs.listInodes ∧ fs.bucketOf a = i

variable {fs : Filesystem} {ino : Int}

theorem inoNumToInode_outside (outside : ¬fs.InTable ino) :
    ∃ fault, fs.inoNumToInode ino = .error fault := by
  unfold InTable at outside
  unfold inoNumToInode
  by_cases root : ino = 1
  · rw [if_pos root] at outside ⊢
    cases up : fs.root with
    | none => exact absurd (fun r hr => absurd (up.symm.trans hr) (by simp)) outside
    | some r =>
      refine ⟨.freedInode, if_neg fun live => outside fun r' hr => ?_⟩
      rw [up] at hr
      exact Option.some.inj hr ▸ live
  · rw [if_neg root] at outside ⊢
    refine ⟨.outsideTable, ?_⟩
    rw [hashIndex, if_pos (Int.not_le.mp outside)]

theorem inoNumToInode_unknown (inside : fs.InTable ino) (hashed : fs.Hashed)
    (unknown : fs.NamesNoInode ino) : fs.inoNumToInode ino = .ok none := by
  unfold InTable at inside
  unfold NamesNoInode at unknown
  unfold inoNumToInode
  by_cases root : ino = 1
  · rw [if_pos root] at inside unknown ⊢
    cases up : fs.root with
    | none => rfl
    | some r => exact absurd (inside r up) (unknown r up)
  · rw [if_neg root] at inside unknown ⊢
    rw [hashIndex, if_neg (Int.not_lt.mpr inside)]
    refine congrArg Except.ok (List.find?_eq_none.mpr fun a ha => ?_)
    exact fun same => unknown a ((hashed _ a).mp ha).1 (of_decide_eq_true same)

theorem inoNumToInode_known (inside : fs.InTable ino) (hashed : fs.Hashed)
    (known : ¬fs.NamesNoInode ino) : ∃ a, fs.inoNumToInode ino = .ok (some a) := by
  unfold InTable at inside
  unfold NamesNoInode at known
  unfold inoNumToInode
  by_cases root : ino = 1
  · rw [if_pos root] at inside known ⊢
    cases up : fs.root with
    | none => exact absurd (fun r hr => absurd (up.symm.trans hr) (by simp)) known
    | some r => exact ⟨r, if_pos (inside r up)⟩
  · rw [if_neg root] at inside known ⊢
    rw [hashIndex, if_neg (Int.not_lt.mpr inside)]
    obtain ⟨a, live, same⟩ : ∃ a ∈ fs.listInodes, (fs.inode a).number = ino := by
      simpa using known
    have found : ((fs.inodeHashes (ino.tmod coFsHashTableSize).toNat).find?
        fun a => (fs.inode a).number = ino).isSome := by
      rw [List.find?_isSome]
      exact ⟨a, (hashed _ a).mpr ⟨live, by rw [bucketOf, same]⟩, decide_eq_true same⟩
    obtain ⟨b, hb⟩ := Option.isSome_iff_exists.mp found
    exact ⟨b, congrArg Except.ok hb⟩

end Filesystem

/-- A request ends in an error, without an operation on the host's files, and leaves the table
as it was. -/
def Refused (fs : Filesystem) (outcome : Except FsFault (FsReply × FsWorld)) : Prop :=
  ∃ reply w, outcome = .ok (reply, w) ∧ reply.result < 0 ∧ w.ops = [] ∧ w.fs = fs

/-- The request has an inode number, a case of its own and a reply. -/
def FsRequest.NamesInode : FsRequest → Prop
  | .mount .. | .statfs | .forget _ | .other _ => False
  | _ => True

/-- One of the inode numbers of the request is that of no live inode. -/
def FsRequest.Unknown (fs : Filesystem) : FsRequest → Prop
  | .rename ino newDir _ _ => fs.NamesNoInode ino ∨ fs.NamesNoInode newDir
  | request => ∀ ino, request.ino = some ino → fs.NamesNoInode ino

/-- When the functions get along with an inode that is `NULL`. -/
def FsRequest.SparesUnknown (env : FsEnv) (fs : Filesystem) : FsRequest → Prop
  | .dirOpen ino | .dirRead ino .. | .dirRelease ino => fs.InTable ino
  | .rename ino newDir _ _ => fs.InTable ino ∧ fs.InTable newDir ∧
      (fs.NamesNoInode newDir ∨ env.alloc 0 = false ∨ env.alloc 1 = false)
  | .setattr ino .. | .mknod ino .. | .mkdir ino .. | .unlink ino .. | .rmdir ino ..
  | .write ino .. | .read ino .. | .lookup ino .. => fs.InTable ino ∧ env.alloc 0 = false
  | _ => False

section Refused

variable {env : FsEnv} {fs : Filesystem} {w : FsWorld}

theorem not_refused_error (fault : FsFault) : ¬Refused fs (.error fault) := by
  rintro ⟨reply, w, h, -⟩
  contradiction

theorem not_refused_ops {reply : FsReply} (ops : w.ops ≠ []) : ¬Refused fs (.ok (reply, w)) := by
  rintro ⟨reply, w', h, -, none, -⟩
  obtain ⟨rfl, rfl⟩ := Prod.mk.inj (Except.ok.inj h)
  exact ops none

theorem refused_ok {reply : FsReply} (error : reply.result < 0) (ops : w.ops = [])
    (same : w.fs = fs) : Refused fs (.ok (reply, w)) :=
  ⟨reply, w, rfl, error, ops, same⟩

theorem outOfMemory_negative : translateCode .outOfMemory < 0 := by decide

theorem error_negative : translateCode .error < 0 := by decide

/-- Without its path a function of the flat mode does nothing; with it, the host has an
operation to do. -/
theorem onPath_cases (env : FsEnv) (path : FileName) (op : FileName → HostFileOp) (w : FsWorld) :
    (env.alloc w.allocs = false ∧
      w.onPath env path op = (FsWorld.failed .outOfMemory, { w with allocs := w.allocs + 1 })) ∨
    (env.alloc w.allocs = true ∧ (w.onPath env path op).2.ops ≠ [] ∧
      (w.onPath env path op).2.fs = w.fs) := by
  unfold FsWorld.onPath FsWorld.coOsMalloc
  cases granted : env.alloc w.allocs with
  | false => exact .inl ⟨rfl, rfl⟩
  | true => exact .inr ⟨rfl, List.cons_ne_nil _ _, rfl⟩

variable (start : w.allocs = 0) (idle : w.ops = [])

include start idle

theorem refused_translated (path : FileName) (op : FileName → HostFileOp) :
    Refused w.fs (FsWorld.translated (w.onPath env path op)) ↔ env.alloc 0 = false := by
  rcases onPath_cases env path op w with ⟨denied, equal⟩ | ⟨granted, ops, -⟩
  · rw [start] at denied
    rw [FsWorld.translated, equal]
    exact ⟨fun _ => denied, fun _ => refused_ok outOfMemory_negative idle rfl⟩
  · rw [start] at granted
    exact ⟨fun h => absurd h (not_refused_ops ops), fun h => absurd (granted.symm.trans h)
      (by decide)⟩

theorem refused_inodeMknod (mode : Nat) (name : FileName) :
    Refused w.fs (w.inodeMknod env none mode name) ↔ env.alloc 0 = false := by
  unfold FsWorld.inodeMknod FsWorld.flatModeInodeMknod
  rcases onPath_cases env (w.fs.dirInodeToPath none name) (.mknod · mode) w with
    ⟨denied, equal⟩ | ⟨granted, ops, -⟩
  · rw [start] at denied
    rw [equal]
    exact ⟨fun _ => denied, fun _ => refused_ok outOfMemory_negative idle rfl⟩
  · rw [start] at granted
    generalize w.onPath env _ _ = x at ops
    refine ⟨fun h => absurd h ?_, fun h => absurd (granted.symm.trans h) (by decide)⟩
    dsimp only
    split
    · exact not_refused_error _
    · exact not_refused_ops ops

theorem refused_inodeLookup (name : FileName) :
    Refused w.fs (w.inodeLookup env none name) ↔ env.alloc 0 = false := by
  unfold FsWorld.inodeLookup FsWorld.flatModeGetattr
  rcases onPath_cases env (w.fs.dirInodeToPath none name) .getAttr w with
    ⟨denied, equal⟩ | ⟨granted, ops, -⟩
  · rw [start] at denied
    rw [equal]
    exact ⟨fun _ => denied, fun _ => refused_ok outOfMemory_negative idle rfl⟩
  · rw [start] at granted
    generalize w.onPath env _ _ = x at ops
    refine ⟨fun h => absurd h ?_, fun h => absurd (granted.symm.trans h) (by decide)⟩
    dsimp only
    split
    · exact not_refused_error _
    · exact not_refused_ops ops

/-- Renaming into a directory that exists. -/
theorem refused_inodeRename {dir : Option InodeId} {newDirNum : Int} {newDir : InodeId}
    (found : w.fs.inoNumToInode newDirNum = .ok (some newDir)) (oldname newname : FileName) :
    Refused w.fs (w.inodeRename env dir newDirNum oldname newname) ↔
      env.alloc 0 = false ∨ env.alloc 1 = false := by
  unfold FsWorld.inodeRename FsWorld.flatModeInodeRename
  simp only [found, FsWorld.coOsMalloc, start]
  cases first : env.alloc 0 with
  | false => exact ⟨fun _ => .inl rfl, fun _ => refused_ok outOfMemory_negative idle rfl⟩
  | true =>
    simp only [if_true]
    rcases onPath_cases env (w.fs.dirInodeToPath (some newDir) newname)
      (.rename (w.fs.dirInodeToPath dir oldname)) { w with allocs := 1 } with
      ⟨denied, equal⟩ | ⟨granted, ops, -⟩
    · rw [equal]
      exact ⟨fun _ => .inr denied, fun _ => refused_ok outOfMemory_negative idle rfl⟩
    · generalize FsWorld.onPath env _ _ _ = x at ops
      refine ⟨fun h => absurd h ?_, fun h => ?_⟩
      · split
        · split
          · exact not_refused_error _
          · exact not_refused_ops ops
          · exact not_refused_ops ops
        · exact not_refused_ops ops
      · rcases h with h | h
        · contradiction
        · exact absurd (granted.symm.trans h) (by decide)

end Refused

section Lookup

variable {env : FsEnv} {w : FsWorld} {request : FsRequest} {ino : Int}

/-- The state that a request starts from. -/
abbrev FsWorld.fresh (w : FsWorld) : FsWorld := { w with allocs := 0, ops := [] }

theorem not_refused_outside (at_ino : request.ino = some ino) (outside : ¬w.fs.InTable ino) :
    ¬Refused w.fs (coMonitorFileSystem env request w) := by
  obtain ⟨fault, h⟩ := Filesystem.inoNumToInode_outside outside
  unfold coMonitorFileSystem
  simp only [at_ino, h]
  exact not_refused_error fault

theorem coMonitorFileSystem_found {inode : Option InodeId} (at_ino : request.ino = some ino)
    (found : w.fs.inoNumToInode ino = .ok inode) :
    coMonitorFileSystem env request w = w.fresh.dispatch env request inode := by
  unfold coMonitorFileSystem
  simp only [at_ino, found]

/-- Requests of one inode, from what their functions do without it. -/
theorem refused_iff_of_dispatch {P : Prop} (hashed : w.fs.Hashed) (at_ino : request.ino = some ino)
    (unknown : w.fs.NamesNoInode ino)
    (dispatched : Refused w.fs (w.fresh.dispatch env request none) ↔ P) :
    Refused w.fs (coMonitorFileSystem env request w) ↔ w.fs.InTable ino ∧ P := by
  by_cases inside : w.fs.InTable ino
  · rw [coMonitorFileSystem_found at_ino
      (Filesystem.inoNumToInode_unknown inside hashed unknown), dispatched]
    exact ⟨fun p => ⟨inside, p⟩, fun p => p.2⟩
  · exact ⟨fun h => absurd h (not_refused_outside at_ino inside), fun h => absurd h.1 inside⟩

theorem refused_rename_iff (hashed : w.fs.Hashed) (newDir : Int) (oldname newname : FileName) :
    Refused w.fs (coMonitorFileSystem env (.rename ino newDir oldname newname) w) ↔
      w.fs.InTable ino ∧ w.fs.InTable newDir ∧
        (w.fs.NamesNoInode newDir ∨ env.alloc 0 = false ∨ env.alloc 1 = false) := by
  by_cases inside : w.fs.InTable ino
  · obtain ⟨dir, found⟩ : ∃ dir, w.fs.inoNumToInode ino = .ok dir := by
      by_cases known : w.fs.NamesNoInode ino
      · exact ⟨none, Filesystem.inoNumToInode_unknown inside hashed known⟩
      · obtain ⟨a, found⟩ := Filesystem.inoNumToInode_known inside hashed known
        exact ⟨some a, found⟩
    rw [coMonitorFileSystem_found rfl found]
    show Refused w.fs (w.fresh.inodeRename env dir newDir oldname newname) ↔ _
    by_cases inside' : w.fs.InTable newDir
    · by_cases known : w.fs.NamesNoInode newDir
      · have none := Filesystem.inoNumToInode_unknown inside' hashed known
        refine ⟨fun _ => ⟨inside, inside', .inl known⟩, fun _ => ?_⟩
        unfold FsWorld.inodeRename
        simp only [none]
        exact refused_ok error_negative rfl rfl
      · obtain ⟨a, found'⟩ := Filesystem.inoNumToInode_known inside' hashed known
        rw [show Refused w.fs _ ↔ _ from refused_inodeRename (w := w.fresh) rfl rfl found' oldname
          newname]
        exact ⟨fun h => ⟨inside, inside', .inr h⟩, fun h => h.2.2.resolve_left known⟩
    · obtain ⟨fault, h⟩ := Filesystem.inoNumToInode_outside inside'
      unfold FsWorld.inodeRename
      simp only [h]
      exact ⟨fun h => absurd h (not_refused_error fault), fun h => absurd h.2.1 inside'⟩
  · exact ⟨fun h => absurd h (not_refused_outside rfl inside), fun h => absurd h.1 inside⟩

end Lookup

/-- A request that refers to an inode that does not exist is refused exactly where its function
gets along without one. -/
theorem unknownInode_iff (env : FsEnv) (w : FsWorld) (hashed : w.fs.Hashed) (request : FsRequest)
    (named : request.NamesInode) (unknown : request.Unknown w.fs) :
    Refused w.fs (coMonitorFileSystem env request w) ↔ request.SparesUnknown env w.fs := by
  have refused : Refused w.fs (.ok (FsWorld.reply (translateCode .error), w.fresh)) :=
    refused_ok error_negative rfl rfl
  cases request with
  | mount | statfs | forget | other => exact named.elim
  | rename ino newDir oldname newname =>
    exact refused_rename_iff hashed newDir oldname newname
  | opened ino flags =>
    have granted : ¬Refused w.fs (w.fresh.dispatch env (.opened ino flags) none) := by
      rintro ⟨reply, w', h, error, -⟩
      obtain ⟨rfl, -⟩ := Prod.mk.inj (Except.ok.inj h)
      exact absurd error (by decide)
    exact (refused_iff_of_dispatch hashed rfl (unknown ino rfl) (iff_false_intro granted)).trans
      (iff_of_eq (and_false _))
  | getattr ino =>
    exact (refused_iff_of_dispatch hashed rfl (unknown ino rfl)
      (iff_false_intro (not_refused_error .nullPointer))).trans (iff_of_eq (and_false _))
  | dirOpen ino | dirRead ino | dirRelease ino =>
    refine (refused_iff_of_dispatch hashed rfl (unknown ino rfl) ?_).trans
      (iff_of_eq (and_true _))
    exact iff_true_intro refused
  | mknod ino mode rdev name =>
    exact refused_iff_of_dispatch hashed rfl (unknown ino rfl)
      (refused_inodeMknod (w := w.fresh) rfl rfl mode name)
  | lookup ino name =>
    exact refused_iff_of_dispatch hashed rfl (unknown ino rfl)
      (refused_inodeLookup (w := w.fresh) rfl rfl name)
  | setattr ino | mkdir ino | unlink ino | rmdir ino | write ino | read ino =>
    exact refused_iff_of_dispatch hashed rfl (unknown ino rfl)
      (refused_translated (w := w.fresh) rfl rfl _ _)

/-! ## A fresh mount -/

theorem coMonitorFileSystemInit_hashed (pathname : FileName) :
    (coMonitorFileSystemInit pathname).fs.Hashed := by
  intro i a
  show a ∈ (if i = 1 then [0] else []) ↔ a ∈ [0] ∧ _
  by_cases this : a = 0
  · subst this
    show _ ↔ 0 ∈ [0] ∧ 1 = i
    by_cases bucket : i = 1 <;> simp [bucket, eq_comm]
  · by_cases bucket : i = 1 <;> simp [bucket, this]

theorem coMonitorFileSystemInit_unknown (pathname : FileName) {ino : Int} (h : ino ≠ 1) :
    (coMonitorFileSystemInit pathname).fs.NamesNoInode ino := by
  unfold Filesystem.NamesNoInode
  rw [if_neg h]
  intro a ha
  obtain rfl : a = 0 := List.mem_singleton.mp ha
  exact Ne.symm h

/-- A directory listing of inode 5 is refused. -/
theorem unknownInode_iff_dirOpen :
    Refused (coMonitorFileSystemInit [0x43]).fs
        (coMonitorFileSystem grantingEnv (.dirOpen 5) (coMonitorFileSystemInit [0x43])) ↔
      (FsRequest.dirOpen 5).SparesUnknown grantingEnv (coMonitorFileSystemInit [0x43]).fs :=
  unknownInode_iff grantingEnv (coMonitorFileSystemInit [0x43])
    (coMonitorFileSystemInit_hashed [0x43]) (.dirOpen 5) trivial fun ino h =>
      coMonitorFileSystemInit_unknown [0x43] (by
        obtain rfl := Option.some.inj h
        decide)

/-- Unlinking `a` in inode 5 of a fresh mount of `C` unlinks `C\a`. -/
theorem unlink_unknown :
    (coMonitorFileSystemInit [0x43]).fs.NamesNoInode 5 ∧
    (∃ reply w, coMonitorFileSystem grantingEnv (.unlink 5 [0x61]) (coMonitorFileSystemInit [0x43])
        = .ok (reply, w) ∧ reply.result = 0 ∧ w.ops = [.unlink [0x43, 0x5c, 0x61]]) ∧
    ¬Refused (coMonitorFileSystemInit [0x43]).fs
      (coMonitorFileSystem grantingEnv (.unlink 5 [0x61]) (coMonitorFileSystemInit [0x43])) := by
  refine ⟨coMonitorFileSystemInit_unknown _ (by decide), ⟨_, _, rfl, rfl, rfl⟩, ?_⟩
  exact not_refused_ops (List.cons_ne_nil _ _)

end CoLinux
