import CoLinux.Kernel.FilesystemRequests
import CoLinux.Kernel.Proofs.FilesystemFree

/-!
# What a request does to the inode table

`TableStep` has one constructor for every way in which a request changes the table, with the
facts that its function has checked on the way. Invariants of the table are proved along it.
-/

namespace CoLinux

open Lib

/-- The request makes an inode for `name` in directory `p`, the inode with number `ino`. -/
structure Allocates (env : FsEnv) (fs : Filesystem) (ino : Int) (name : FileName)
    (op : FileName → HostFileOp) (p : InodeId) : Prop where
  dir : fs.inoNumToInode ino = .ok (some p)
  granted : ∀ i, i < 3 → env.alloc i = true
  answer : (env.file (op (fs.dirInodeToPath (some p) name))).rc = .ok
  missing : fs.findInode (some p) name = .ok none

/-- The request moves inode `a` from directory `p` to directory `b`. -/
structure Renames (env : FsEnv) (fs : Filesystem) (ino newDir : Int)
    (oldname newname : FileName) (p a b : InodeId) : Prop where
  dir : fs.inoNumToInode ino = .ok (some p)
  target : fs.inoNumToInode newDir = .ok (some b)
  granted : ∀ i, i < 2 → env.alloc i = true
  answer : (env.file (.rename (fs.dirInodeToPath (some p) oldname)
    (fs.dirInodeToPath (some b) newname))).rc = .ok
  found : fs.findInode (some p) oldname = .ok (some a)

inductive TableStep (env : FsEnv) (fs : Filesystem) : FsRequest → Filesystem → Prop where
  | same (request : FsRequest) : TableStep env fs request fs
  | mount (pathname : FileName) (options : MountOptions) (basePath : FileName) :
    TableStep env fs (.mount pathname options) { fs with basePath := basePath }
  | names (request : FsRequest) (ino : Int) (a : InodeId) (names : Option FilesystemDirNames) :
    fs.inoNumToInode ino = .ok (some a) →
    TableStep env fs request (fs.modifyInode a fun i => { i with names := names })
  | lookup (ino : Int) (name : FileName) (p : InodeId) (number next : Int) :
    Allocates env fs ino name .getAttr p →
    fs.allocNumber fs.listInodes.length fs.nextInodeNum = .ok (number, next) →
    TableStep env fs (.lookup ino name) (fs.linkInode (some p) (some name) number next)
  | mknod (ino : Int) (mode rdev : Nat) (name : FileName) (p : InodeId) (number next : Int) :
    Allocates env fs ino name (.mknod · mode) p →
    fs.allocNumber fs.listInodes.length fs.nextInodeNum = .ok (number, next) →
    TableStep env fs (.mknod ino mode rdev name)
      (fs.linkInode (some p) (some name) number next)
  | rename (ino newDir : Int) (oldname newname : FileName) (p a b : InodeId) :
    Renames env fs ino newDir oldname newname p a b →
    TableStep env fs (.rename ino newDir oldname newname)
      (fs.renameInode a b (if env.alloc 2 then some newname else none))
  | forget (ino : Int) (a : InodeId) : fs.inoNumToInode ino = .ok (some a) →
    (fs.teardown.freeInodeWithChildren a).ledger.faults = [] →
    TableStep env fs (.forget ino) (fs.teardown.freeInodeWithChildren a).fs

theorem Filesystem.linkInode_number (fs : Filesystem) (p : InodeId) (name : FileName)
    (number next : Int) :
    ((fs.linkInode (some p) (some name) number next).inode fs.heap).number = number := by
  by_cases this : fs.heap = p <;> simp [linkInode, modifyInode, this]

namespace Filesystem

variable {fs : Filesystem} {name : FileName}

theorem findIn_some {l : List InodeId} {a : InodeId} (h : fs.findIn name l = .ok (some a)) :
    a ∈ l ∧ (fs.inode a).name = some name := by
  induction l with
  | nil => cases Except.ok.inj h
  | cons b l ih =>
    unfold findIn at h
    split at h
    · contradiction
    rename_i s named
    split at h
    · rename_i eq
      obtain rfl := Option.some.inj (Except.ok.inj h)
      exact ⟨List.mem_cons_self, named.trans (congrArg some eq)⟩
    · exact ⟨List.mem_cons_of_mem _ (ih h).1, (ih h).2⟩

theorem findIn_none {l : List InodeId} (h : fs.findIn name l = .ok none) :
    ∀ a ∈ l, (fs.inode a).name ≠ some name := by
  induction l with
  | nil => exact fun a ha => absurd ha List.not_mem_nil
  | cons b l ih =>
    unfold findIn at h
    split at h
    · contradiction
    rename_i s named
    split at h
    · cases Except.ok.inj h
    rename_i ne
    intro a ha
    rcases List.mem_cons.mp ha with rfl | ha
    · exact fun eq => ne (Option.some.inj (named.symm.trans eq))
    · exact ih h a ha

/-- A number that is looked up successfully belongs to a live inode, and is its own. -/
theorem inoNumToInode_some {ino : Int} {a : InodeId} (shaped : fs.Shaped)
    (h : fs.inoNumToInode ino = .ok (some a)) :
    a ∈ fs.listInodes ∧ (ino = 1 → fs.root = some a) ∧ (ino ≠ 1 → (fs.inode a).number = ino) := by
  unfold inoNumToInode at h
  by_cases root : ino = 1
  · rw [if_pos root] at h
    split at h
    · cases Except.ok.inj h
    rename_i r up
    split at h
    · rename_i live
      obtain rfl := Option.some.inj (Except.ok.inj h)
      exact ⟨live, fun _ => up, fun other => absurd root other⟩
    · contradiction
  · rw [if_neg root] at h
    split at h
    · contradiction
    · rename_i i _
      have found := Except.ok.inj h
      refine ⟨((shaped.mem_hash i a).mp (List.mem_of_find?_eq_some found)).1,
        fun eq => absurd eq root, fun _ => ?_⟩
      have same := List.find?_some found
      exact of_decide_eq_true same

/-- A field that an open listing has nothing to do with. -/
theorem modifyNames_field {α : Type} (fs : Filesystem) (a : InodeId)
    (names : Option FilesystemDirNames) (f : Inode → α)
    (same : ∀ i : Inode, f { i with names := names } = f i) (x : InodeId) :
    f ((fs.modifyInode a fun i => { i with names := names }).inode x) = f (fs.inode x) := by
  by_cases this : x = a
  · rw [this, modifyInode_self, same]
  · rw [modifyInode_ne _ _ this]

theorem modifyNames_parentOf (fs : Filesystem) (a : InodeId)
    (names : Option FilesystemDirNames) :
    (fs.modifyInode a fun i => { i with names := names }).parentOf = fs.parentOf :=
  funext (modifyNames_field fs a names _ fun _ => rfl)

theorem Shaped.modifyNames (h : fs.Shaped) (a : InodeId) (names : Option FilesystemDirNames) :
    (fs.modifyInode a fun i => { i with names := names }).Shaped := by
  refine h.congr rfl rfl rfl rfl ?_ ?_ ?_ <;> exact modifyNames_field fs a names _ fun _ => rfl

end Filesystem

section Cases

variable {env : FsEnv} {w w' : FsWorld} {reply : FsReply}

theorem onPath_fs (env : FsEnv) (path : FileName) (op : FileName → HostFileOp) (w : FsWorld) :
    (w.onPath env path op).2.fs = w.fs ∧
      ((w.onPath env path op).1.rc = .ok → env.alloc w.allocs = true ∧
        (env.file (op path)).rc = .ok ∧
        w.onPath env path op = (env.file (op path),
          { w with allocs := w.allocs + 1, ops := op path :: w.ops })) := by
  unfold FsWorld.onPath FsWorld.coOsMalloc
  cases granted : env.alloc w.allocs with
  | false => exact ⟨rfl, fun h => by contradiction⟩
  | true => exact ⟨rfl, fun h => ⟨rfl, h, rfl⟩⟩

/-- A child that gets a number has an inode already, or gets one. -/
theorem childNumber_cases {dir : Option InodeId} {name : FileName} {number : Int}
    (h : w.childNumber env dir name = .ok (number, w')) :
    ∃ p, dir = some p ∧
      ((∃ a, w.fs.findInode dir name = .ok (some a) ∧ number = (w.fs.inode a).number ∧ w' = w) ∨
        (w.fs.findInode dir name = .ok none ∧ env.alloc w.allocs = true ∧
          env.alloc (w.allocs + 1) = true ∧ ∃ next,
          w.fs.allocNumber w.fs.listInodes.length w.fs.nextInodeNum = .ok (number, next) ∧
          w' = { w with
            allocs := w.allocs + 2
            fs := w.fs.linkInode (some p) (some name) number next })) := by
  unfold FsWorld.childNumber at h
  split at h
  · contradiction
  · rename_i dir _ _ a found
    obtain ⟨rfl, rfl⟩ := Prod.mk.inj (Except.ok.inj h)
    cases dir with
    | none => contradiction
    | some p => exact ⟨p, rfl, .inl ⟨a, found, rfl, rfl⟩⟩
  · contradiction
  · rename_i p missing
    refine ⟨p, rfl, .inr ⟨missing, ?_⟩⟩
    unfold FsWorld.allocInode FsWorld.coOsMalloc at h
    cases first : env.alloc w.allocs with
    | false =>
      simp only [first] at h
      contradiction
    | true =>
      simp only [first, if_true] at h
      cases chosen : w.fs.allocNumber w.fs.listInodes.length w.fs.nextInodeNum with
      | error fault =>
        simp only [chosen] at h
        contradiction
      | ok pair =>
        simp only [chosen] at h
        cases second : env.alloc (w.allocs + 1) with
        | false =>
          simp only [second] at h
          contradiction
        | true =>
          simp only [second, if_true] at h
          obtain ⟨rfl, rfl⟩ := Prod.mk.inj (Except.ok.inj h)
          have same := Filesystem.linkInode_number w.fs p name pair.1 pair.2
          refine ⟨rfl, rfl, pair.2, ?_, ?_⟩
          · rw [same]
          · rw [same]

/-- The second half of `inode_lookup` and `inode_mknod`. -/
theorem childNumber_step {request : FsRequest} {inode : Option InodeId} {ino number : Int}
    {name : FileName} {op : FileName → HostFileOp} {w₁ : FsWorld}
    (found : w.fs.inoNumToInode ino = .ok inode) (start : w.allocs = 0)
    (path : (w.onPath env (w.fs.dirInodeToPath inode name) op).1.rc = .ok)
    (made : (w.onPath env (w.fs.dirInodeToPath inode name) op).2.childNumber env inode name =
      .ok (number, w₁))
    (step : ∀ p next, Allocates env w.fs ino name op p →
      w.fs.allocNumber w.fs.listInodes.length w.fs.nextInodeNum = .ok (number, next) →
      TableStep env w.fs request (w.fs.linkInode (some p) (some name) number next)) :
    TableStep env w.fs request w₁.fs := by
  obtain ⟨granted, host, equal⟩ := (onPath_fs env (w.fs.dirInodeToPath inode name) op w).2 path
  rw [equal] at made
  obtain ⟨p, rfl, ⟨a, -, -, rfl⟩ | ⟨missing, second, third, next, chosen, rfl⟩⟩ :=
    childNumber_cases made
  · exact .same request
  · refine step p next ⟨found, fun i hi => ?_, host, missing⟩ chosen
    rw [start] at granted second third
    match i, hi with
    | 0, _ => exact granted
    | 1, _ => exact second
    | 2, _ => exact third

theorem inodeLookup_step {inode : Option InodeId} {ino : Int} {name : FileName}
    (h : w.inodeLookup env inode name = .ok (reply, w'))
    (found : w.fs.inoNumToInode ino = .ok inode) (start : w.allocs = 0) :
    TableStep env w.fs (.lookup ino name) w'.fs := by
  have same := (onPath_fs env (w.fs.dirInodeToPath inode name) .getAttr w).1
  unfold FsWorld.inodeLookup FsWorld.flatModeGetattr at h
  dsimp only at h
  split at h
  · rename_i path
    split at h
    · contradiction
    · rename_i number w₁ made
      obtain ⟨-, rfl⟩ := Prod.mk.inj (Except.ok.inj h)
      exact childNumber_step found start path made fun p next => .lookup ino name p number next
  · obtain ⟨-, rfl⟩ := Prod.mk.inj (Except.ok.inj h)
    rw [same]
    exact .same _

theorem inodeMknod_step {inode : Option InodeId} {ino : Int} {mode rdev : Nat} {name : FileName}
    (h : w.inodeMknod env inode mode name = .ok (reply, w'))
    (found : w.fs.inoNumToInode ino = .ok inode) (start : w.allocs = 0) :
    TableStep env w.fs (.mknod ino mode rdev name) w'.fs := by
  have same := (onPath_fs env (w.fs.dirInodeToPath inode name) (.mknod · mode) w).1
  unfold FsWorld.inodeMknod FsWorld.flatModeInodeMknod at h
  dsimp only at h
  split at h
  · rename_i path
    split at h
    · contradiction
    · rename_i number w₁ made
      obtain ⟨-, rfl⟩ := Prod.mk.inj (Except.ok.inj h)
      exact childNumber_step found start path made fun p next =>
        .mknod ino mode rdev name p number next
  · obtain ⟨-, rfl⟩ := Prod.mk.inj (Except.ok.inj h)
    rw [same]
    exact .same _

theorem inodeRename_step {inode : Option InodeId} {ino newDir : Int} {oldname newname : FileName}
    (h : w.inodeRename env inode newDir oldname newname = .ok (reply, w'))
    (found : w.fs.inoNumToInode ino = .ok inode) (start : w.allocs = 0) :
    TableStep env w.fs (.rename ino newDir oldname newname) w'.fs := by
  unfold FsWorld.inodeRename FsWorld.flatModeInodeRename FsWorld.coOsMalloc at h
  split at h
  · contradiction
  · obtain ⟨-, rfl⟩ := Prod.mk.inj (Except.ok.inj h)
    exact .same _
  rename_i b target
  dsimp only at h
  cases first : env.alloc w.allocs with
  | false =>
    simp only [first] at h
    obtain ⟨-, rfl⟩ := Prod.mk.inj (Except.ok.inj h)
    exact .same _
  | true =>
    simp only [first, if_true] at h
    obtain ⟨same, ok⟩ := onPath_fs env (w.fs.dirInodeToPath (some b) newname)
      (.rename (w.fs.dirInodeToPath inode oldname)) { w with allocs := w.allocs + 1 }
    split at h
    · rename_i answer
      obtain ⟨second, host, equal⟩ := ok answer
      rw [equal] at h
      split at h
      · contradiction
      · obtain ⟨-, rfl⟩ := Prod.mk.inj (Except.ok.inj h)
        exact .same _
      · rename_i a child
        obtain ⟨-, rfl⟩ := Prod.mk.inj (Except.ok.inj h)
        cases inode with
        | none => contradiction
        | some p =>
          rw [start] at first second
          have moved : Renames env w.fs ino newDir oldname newname p a b := by
            refine ⟨found, target, fun i hi => ?_, host, child⟩
            match i, hi with
            | 0, _ => exact first
            | 1, _ => exact second
          have step := TableStep.rename ino newDir oldname newname p a b moved
          simp only [start]
          exact step
    · obtain ⟨-, rfl⟩ := Prod.mk.inj (Except.ok.inj h)
      rw [same]
      exact .same _

theorem inodeDirOpen_step {request : FsRequest} {inode : Option InodeId} {ino : Int}
    (h : w.inodeDirOpen env inode = .ok (reply, w'))
    (found : w.fs.inoNumToInode ino = .ok inode) :
    TableStep env w.fs request w'.fs := by
  unfold FsWorld.inodeDirOpen FsWorld.coOsMalloc at h
  split at h
  · obtain ⟨-, rfl⟩ := Prod.mk.inj (Except.ok.inj h)
    exact .same _
  rename_i a
  split at h
  · obtain ⟨-, rfl⟩ := Prod.mk.inj (Except.ok.inj h)
    exact .names _ ino a _ found
  dsimp only at h
  split at h
  · obtain ⟨-, rfl⟩ := Prod.mk.inj (Except.ok.inj h)
    have same := (onPath_fs env (w.fs.inodeToPath (some a) 1) .getdir
      { w with allocs := w.allocs + 1 }).1
    have same : (FsWorld.flatModeGetdir env (some a) { w with allocs := w.allocs + 1 }).2.fs =
        w.fs := same
    split
    · unfold FsWorld.setNames
      rw [same]
      exact .names _ ino a _ found
    · rw [same]
      exact .same _
  · obtain ⟨-, rfl⟩ := Prod.mk.inj (Except.ok.inj h)
    exact .same _

/-- Every request takes one of the steps. -/
theorem dispatch_step {request : FsRequest} {inode : Option InodeId}
    (h : w.dispatch env request inode = .ok (reply, w')) (start : w.allocs = 0)
    (found : ∀ ino, request.ino = some ino → w.fs.inoNumToInode ino = .ok inode) :
    TableStep env w.fs request w'.fs := by
  have kept {x : FsWorld} (same : x.fs = w.fs) : TableStep env w.fs request x.fs := by
    rw [same]
    exact .same request
  have translated {x : HostAnswer × FsWorld} (same : x.2.fs = w.fs)
      (h : FsWorld.translated x = .ok (reply, w')) : TableStep env w.fs request w'.fs := by
    obtain ⟨-, rfl⟩ := Prod.mk.inj (Except.ok.inj h)
    exact kept same
  have unchanged {r : FsReply} (h : (Except.ok (r, w) : Except FsFault _) = .ok (reply, w')) :
      TableStep env w.fs request w'.fs := by
    obtain ⟨-, rfl⟩ := Prod.mk.inj (Except.ok.inj h)
    exact .same request
  cases request with
  | mount pathname options =>
    obtain ⟨-, rfl⟩ := Prod.mk.inj (Except.ok.inj h)
    exact .mount pathname options _
  | statfs => exact translated rfl h
  | setattr | mkdir | unlink | rmdir | write | read =>
    exact translated (onPath_fs env _ _ w).1 h
  | opened | other => exact unchanged h
  | rename ino newDir oldname newname => exact inodeRename_step h (found ino rfl) start
  | forget ino =>
    replace h : w.inodeForget inode = .ok (reply, w') := h
    unfold FsWorld.inodeForget at h
    split at h
    · exact unchanged h
    · rename_i a
      dsimp only at h
      split at h
      · rename_i clean
        obtain ⟨-, rfl⟩ := Prod.mk.inj (Except.ok.inj h)
        exact .forget ino a (found ino rfl) clean
      · contradiction
  | mknod ino mode rdev name => exact inodeMknod_step h (found ino rfl) start
  | lookup ino name => exact inodeLookup_step h (found ino rfl) start
  | getattr ino =>
    replace h : w.inodeGetAttr env inode = .ok (reply, w') := h
    unfold FsWorld.inodeGetAttr at h
    split at h
    · contradiction
    · obtain ⟨-, rfl⟩ := Prod.mk.inj (Except.ok.inj h)
      refine kept ?_
      exact (onPath_fs env _ _ w).1
  | dirOpen ino => exact inodeDirOpen_step h (found ino rfl)
  | dirRead ino size buff filePos =>
    replace h : w.inodeDirReadRequest env inode size buff filePos = .ok (reply, w') := h
    unfold FsWorld.inodeDirReadRequest at h
    split at h
    · exact unchanged h
    split at h <;> exact unchanged h
  | dirRelease ino =>
    replace h : w.inodeDirRelease inode = .ok (reply, w') := h
    unfold FsWorld.inodeDirRelease at h
    split at h
    · exact unchanged h
    split at h
    · exact unchanged h
    · obtain ⟨-, rfl⟩ := Prod.mk.inj (Except.ok.inj h)
      exact .names _ ino _ _ (found ino rfl)

end Cases

theorem coMonitorFileSystemInit_shaped (pathname : FileName) :
    (coMonitorFileSystemInit pathname).fs.Shaped := by
  have void {P : InodeId → Prop} : ∀ a ∈ ([] : List InodeId), P a :=
    fun _ ha => absurd ha List.not_mem_nil
  have empty : Filesystem.Shaped
      { listInodes := [], inode := fun _ => ⟨none, [], none, none, 0⟩
        inodeHashes := fun _ => [], root := none, inodesCount := 0, nextInodeNum := 1
        basePath := pathname, heap := 0 } :=
    ⟨List.nodup_nil, fun i a => ⟨fun ha => absurd ha List.not_mem_nil, fun ha => ha.1⟩,
      fun _ => List.nodup_nil, void, void, fun a p ha => absurd ha List.not_mem_nil, void, rfl,
      void⟩
  have root : (Filesystem.linkInode _ none none 1 2).Shaped :=
    empty.linkInode fun p hp => by contradiction
  exact root.congr rfl rfl rfl rfl (fun _ => rfl) (fun _ => rfl) fun _ => rfl

theorem step_tableStep (env : FsEnv) (request : FsRequest) (w : FsWorld) :
    TableStep env w.fs request (w.step (env, request)).fs := by
  unfold FsWorld.step
  cases h : coMonitorFileSystem env request w with
  | error fault => exact .same request
  | ok pair =>
    obtain ⟨reply, w'⟩ := pair
    dsimp only
    unfold coMonitorFileSystem at h
    dsimp only at h
    split at h
    · rename_i none
      exact dispatch_step (w := { w with allocs := 0, ops := [] }) h rfl fun ino at_ino => by
        rw [none] at at_ino
        contradiction
    · rename_i ino at_ino
      split at h
      · contradiction
      · rename_i inode found
        refine dispatch_step (w := { w with allocs := 0, ops := [] }) h rfl fun ino' at_ino' => ?_
        rw [at_ino] at at_ino'
        obtain rfl := Option.some.inj at_ino'
        exact found

end CoLinux
