import CoLinux.Kernel.Proofs.FilesystemSteps
import CoLinux.Lib.Run

/-!
# The inode table over a run of requests

`Consistent` is what the rest of the code takes for granted about the table. Every request keeps
it but for four things a request can do: forget the root, wrap the inode numbers around, rename
onto a name that is taken, and run out of memory for the new name.
-/

namespace CoLinux

open Lib

namespace Filesystem

/-- The lists agree with each other, inodes are told apart by their numbers and, among the
children of one inode, by their names, and only the root is without parent and name. -/
structure Consistent (fs : Filesystem) : Prop where
  shaped : fs.Shaped
  root : ∃ r, fs.root = some r ∧ r ∈ fs.listInodes ∧ fs.parentOf r = none
  child : ∀ a ∈ fs.listInodes, fs.root ≠ some a →
    fs.parentOf a ≠ none ∧ (fs.inode a).name ≠ none
  unique : ∀ a ∈ fs.listInodes, ∀ b ∈ fs.listInodes,
    (fs.inode a).number = (fs.inode b).number → a = b
  positive : ∀ a ∈ fs.listInodes, 0 < (fs.inode a).number
  siblings : ∀ a ∈ fs.listInodes, ∀ b ∈ fs.listInodes, ∀ p, fs.parentOf a = some p →
    fs.parentOf b = some p → (fs.inode a).name = (fs.inode b).name → a = b

/-- `Consistent` with what the numbers still to come are like. -/
structure TableInv (fs : Filesystem) : Prop where
  consistent : fs.Consistent
  root_number : ∀ r, fs.root = some r → (fs.inode r).number = 1
  next_lt : fs.nextInodeNum < 2147483648
  fresh : 0 < fs.nextInodeNum → ∀ a ∈ fs.listInodes, (fs.inode a).number < fs.nextInodeNum

variable {fs : Filesystem} {p : InodeId} {name : FileName}

/-! ## The steps -/

/-- Above all numbers in use the first number tried is free. -/
theorem allocNumber_fresh (shaped : fs.Shaped) {next : Int} (positive : 1 < next)
    (above : ∀ a ∈ fs.listInodes, (fs.inode a).number < next) (turns : Nat) :
    fs.allocNumber turns next = .ok (next, intSucc next) := by
  have missing : fs.inoNumToInode next = .ok none := by
    unfold inoNumToInode
    rw [if_neg (by omega)]
    have index : ¬next.tmod coFsHashTableSize < 0 := by
      have := Int.tmod_nonneg (coFsHashTableSize : Int) (show 0 ≤ next by omega)
      omega
    rw [hashIndex, if_neg index]
    refine congrArg Except.ok (List.find?_eq_none.mpr fun a ha => ?_)
    have live := ((shaped.mem_hash _ a).mp ha).1
    have := above a live
    simp only [decide_eq_true_eq]
    omega
  cases turns with
  | zero => rfl
  | succ turns =>
    unfold allocNumber
    rw [missing]

theorem intSucc_cases {next : Int} (positive : 0 < next) (bound : next < 2147483648) :
    intSucc next < 2147483648 ∧ (0 < intSucc next → intSucc next = next + 1) := by
  unfold intSucc
  have : wordSize = 4294967296 := rfl
  rw [Int.bmod_def, this]
  split <;> omega

/-- `Consistent` and `TableInv` do not depend on listings and the base path. -/
theorem TableInv.congr {fs fs' : Filesystem} (h : fs.TableInv) (shaped : fs'.Shaped)
    (list : fs'.listInodes = fs.listInodes) (root : fs'.root = fs.root)
    (next : fs'.nextInodeNum = fs.nextInodeNum)
    (parent : ∀ x, (fs'.inode x).parent = (fs.inode x).parent)
    (named : ∀ x, (fs'.inode x).name = (fs.inode x).name)
    (number : ∀ x, (fs'.inode x).number = (fs.inode x).number) : fs'.TableInv := by
  have parentOf : fs'.parentOf = fs.parentOf := funext parent
  refine ⟨⟨shaped, ?_, fun a ha top => ?_, fun a ha b hb same => ?_, fun a ha => ?_,
    fun a ha b hb p up up' same => ?_⟩, fun r up => ?_, next ▸ h.next_lt, fun positive a ha => ?_⟩
  · rw [root, list, parentOf]
    exact h.consistent.root
  · rw [parentOf, named]
    exact h.consistent.child a (list ▸ ha) (root ▸ top)
  · rw [number, number] at same
    exact h.consistent.unique a (list ▸ ha) b (list ▸ hb) same
  · rw [number]
    exact h.consistent.positive a (list ▸ ha)
  · rw [named, named] at same
    exact h.consistent.siblings a (list ▸ ha) b (list ▸ hb) p (parentOf ▸ up) (parentOf ▸ up') same
  · rw [number]
    exact h.root_number r (root ▸ up)
  · rw [number, next]
    exact h.fresh (next ▸ positive) a (list ▸ ha)

theorem TableInv.modifyNames (h : fs.TableInv) (a : InodeId)
    (names : Option FilesystemDirNames) :
    (fs.modifyInode a fun i => { i with names := names }).TableInv := by
  refine h.congr (h.consistent.shaped.modifyNames a names) rfl rfl rfl ?_ ?_ ?_ <;>
    exact modifyNames_field fs a names _ fun _ => rfl

theorem TableInv.link (h : fs.TableInv) (live : p ∈ fs.listInodes)
    (missing : fs.findInode (some p) name = .ok none) (positive : 0 < fs.nextInodeNum) :
    (fs.linkInode (some p) (some name) fs.nextInodeNum (intSucc fs.nextInodeNum)).TableInv := by
  have shaped := h.consistent.shaped
  have below (q : InodeId) (hq : some p = some q) : q < fs.heap :=
    Option.some.inj hq ▸ shaped.heap p live
  have old {x : InodeId} (hx : x ∈ fs.listInodes) : x ≠ fs.heap := Nat.ne_of_lt (shaped.heap x hx)
  obtain ⟨r, up, liveR, top⟩ := h.consistent.root
  obtain ⟨bound, succ⟩ := intSucc_cases positive h.next_lt
  have mem (x : InodeId) : x ∈ (fs.linkInode (some p) (some name) fs.nextInodeNum
      (intSucc fs.nextInodeNum)).listInodes ↔ x ∈ fs.listInodes ∨ x = fs.heap := by
    show x ∈ fs.listInodes ++ [fs.heap] ↔ _
    simp
  generalize equal : fs.linkInode (some p) (some name) fs.nextInodeNum
    (intSucc fs.nextInodeNum) = fs' at mem
  have parent (x : InodeId) :
      fs'.parentOf x = if x = fs.heap then some p else fs.parentOf x := by
    rw [← equal, linkInode_parentOf below]
  have named (x : InodeId) :
      (fs'.inode x).name = if x = fs.heap then some name else (fs.inode x).name := by
    rw [← equal, linkInode_inode below]
    split
    · rfl
    · split <;> rfl
  have number (x : InodeId) :
      (fs'.inode x).number = if x = fs.heap then fs.nextInodeNum else (fs.inode x).number := by
    rw [← equal, linkInode_inode below]
    split
    · rfl
    · split <;> rfl
  have root : fs'.root = fs.root := by rw [← equal]; rfl
  have next : fs'.nextInodeNum = intSucc fs.nextInodeNum := by rw [← equal]; rfl
  -- the new inode differs from the old ones in its number, and from its siblings in its name
  have other_number (x : InodeId) (hx : x ∈ fs.listInodes) :
      (fs.inode x).number ≠ fs.nextInodeNum := Int.ne_of_lt (h.fresh positive x hx)
  have other_name (x : InodeId) (hx : x ∈ fs.listInodes) (up : fs.parentOf x = some p) :
      (fs.inode x).name ≠ some name :=
    findIn_none missing x ((shaped.mem_children p live x).mpr ⟨hx, up⟩)
  have shaped' : fs'.Shaped := by
    rw [← equal]
    exact shaped.linkInode fun q hq => Option.some.inj hq ▸ live
  refine ⟨⟨shaped', ⟨r, root.trans up, (mem r).mpr (.inl liveR), ?_⟩, fun a ha top => ?_,
    fun a ha b hb same => ?_, fun a ha => ?_, fun a ha b hb q up up' same => ?_⟩,
    fun r' up' => ?_, ?_, fun positive' a ha => ?_⟩
  · rw [parent, if_neg (old liveR)]
    exact top
  · rw [parent, named]
    rcases (mem a).mp ha with ha | rfl
    · rw [if_neg (old ha), if_neg (old ha)]
      exact h.consistent.child a ha (root ▸ top)
    · rw [if_pos rfl, if_pos rfl]
      exact ⟨Option.some_ne_none _, Option.some_ne_none _⟩
  · rw [number, number] at same
    rcases (mem a).mp ha with ha | rfl <;> rcases (mem b).mp hb with hb | rfl
    · rw [if_neg (old ha), if_neg (old hb)] at same
      exact h.consistent.unique a ha b hb same
    · rw [if_neg (old ha), if_pos rfl] at same
      exact absurd same (other_number a ha)
    · rw [if_neg (old hb), if_pos rfl] at same
      exact absurd same.symm (other_number b hb)
    · rfl
  · rw [number]
    rcases (mem a).mp ha with ha | rfl
    · rw [if_neg (old ha)]
      exact h.consistent.positive a ha
    · rw [if_pos rfl]
      exact positive
  · rw [parent] at up up'
    rw [named, named] at same
    rcases (mem a).mp ha with ha | rfl <;> rcases (mem b).mp hb with hb | rfl
    · rw [if_neg (old ha)] at up same
      rw [if_neg (old hb)] at up' same
      exact h.consistent.siblings a ha b hb q up up' same
    · rw [if_neg (old ha)] at up same
      rw [if_pos rfl] at up' same
      rw [← up'] at up
      exact absurd same (other_name a ha up)
    · rw [if_neg (old hb)] at up' same
      rw [if_pos rfl] at up same
      rw [← up] at up'
      exact absurd same.symm (other_name b hb up')
    · rfl
  · rw [root, up] at up'
    obtain rfl := Option.some.inj up'
    rw [number, if_neg (old liveR)]
    exact h.root_number r up
  · rw [next]
    exact bound
  · rw [next] at positive' ⊢
    rw [succ positive', number]
    rcases (mem a).mp ha with ha | rfl
    · rw [if_neg (old ha)]
      have := h.fresh positive a ha
      omega
    · rw [if_pos rfl]
      omega

theorem TableInv.rename {a b : InodeId} (h : fs.TableInv) (live : a ∈ fs.listInodes)
    (up : fs.parentOf a = some p) (target : b ∈ fs.listInodes) (apart : ¬Below fs.parentOf a b)
    (free : ∀ c ∈ (fs.inode b).subInodes, (fs.inode c).name = some name → c = a) :
    (fs.renameInode a b (some name)).TableInv := by
  have shaped := h.consistent.shaped
  have ne := shaped.ne_parent live up
  have ne' : a ≠ b := fun eq => apart (eq ▸ Below.refl a)
  obtain ⟨list, -, root, -, next, -⟩ := renameInode_lists fs a b (some name)
  obtain ⟨r, upR, liveR, top⟩ := h.consistent.root
  have other : r ≠ a := fun eq => by
    rw [← eq, top] at up
    contradiction
  have named (x : InodeId) : ((fs.renameInode a b (some name)).inode x).name =
      if x = a then some name else (fs.inode x).name := by
    rw [renameInode_inode up ne ne']
    split <;> rfl
  have number (x : InodeId) : ((fs.renameInode a b (some name)).inode x).number =
      (fs.inode x).number := by
    rw [renameInode_inode up ne ne']
    split
    · rename_i eq
      rw [eq]
    · rfl
  have parent (x : InodeId) : (fs.renameInode a b (some name)).parentOf x =
      if x = a then some b else fs.parentOf x := renameInode_parentOf up ne ne' x
  have sibling (x : InodeId) (hx : x ∈ fs.listInodes) (up : fs.parentOf x = some b)
      (same : (fs.inode x).name = some name) : x = a :=
    free x ((shaped.mem_children b target x).mpr ⟨hx, up⟩) same
  have shaped' : (fs.renameInode a b (some name)).Shaped :=
    shaped.renameInode live up target apart
  generalize fs.renameInode a b (some name) = fs' at *
  refine ⟨⟨shaped', ⟨r, root.trans upR, list ▸ liveR, ?_⟩, fun x hx top => ?_,
    fun x hx y hy same => ?_, fun x hx => ?_, fun x hx y hy q upX upY same => ?_⟩,
    fun r' up' => ?_, next ▸ h.next_lt, fun positive x hx => ?_⟩
  · rw [parent, if_neg other]
    exact top
  · rw [parent, named]
    by_cases this : x = a
    · rw [if_pos this, if_pos this]
      exact ⟨Option.some_ne_none _, Option.some_ne_none _⟩
    · rw [if_neg this, if_neg this]
      exact h.consistent.child x (list ▸ hx) (root ▸ top)
  · rw [number, number] at same
    exact h.consistent.unique x (list ▸ hx) y (list ▸ hy) same
  · rw [number]
    exact h.consistent.positive x (list ▸ hx)
  · rw [list] at hx hy
    rw [parent] at upX upY
    rw [named, named] at same
    by_cases own : x = a <;> by_cases own' : y = a
    · rw [own, own']
    · rw [if_pos own] at upX same
      rw [if_neg own'] at upY same
      rw [← upX] at upY
      exact absurd (sibling y hy upY same.symm) own'
    · rw [if_neg own] at upX same
      rw [if_pos own'] at upY same
      rw [← upY] at upX
      exact absurd (sibling x hx upX same) own
    · rw [if_neg own] at upX same
      rw [if_neg own'] at upY same
      exact h.consistent.siblings x hx y hy q upX upY same
  · rw [number]
    exact h.root_number r' (root ▸ up')
  · rw [number, next]
    exact h.fresh (next ▸ positive) x (list ▸ hx)

theorem TableInv.forget {a : InodeId} (h : fs.TableInv) (live : a ∈ fs.listInodes)
    (other : fs.root ≠ some a) : (fs.teardown.freeInodeWithChildren a).fs.TableInv := by
  have shaped := h.consistent.shaped
  obtain ⟨trims, left⟩ :=
    FsTeardown.freeInodeWithChildren_spec (t := fs.teardown) shaped
      (FsTeardown.teardown_held shaped) live
  have gone : a ∉ (fs.teardown.freeInodeWithChildren a).fs.listInodes := fun ha =>
    ((left a).mp ha).2 (.refl a)
  generalize (fs.teardown.freeInodeWithChildren a) = t at *
  have parent (x : InodeId) (hx : x ∈ t.fs.listInodes) : t.fs.parentOf x = fs.parentOf x := by
    obtain ⟨hx, apart⟩ := (left x).mp hx
    have same := (trims.outside x hx apart).2
    rw [if_neg gone] at same
    unfold parentOf
    rw [same]
    exact congrFun (dropInode_parentOf fs a) x
  obtain ⟨r, upR, liveR, top⟩ := h.consistent.root
  refine ⟨⟨trims.shaped, ⟨r, trims.root.trans upR, ?_, ?_⟩, fun x hx top => ?_,
    fun x hx y hy same => ?_, fun x hx => ?_, fun x hx y hy q upX upY same => ?_⟩,
    fun r' up' => ?_, ?_, fun positive x hx => ?_⟩
  · refine (left r).mpr ⟨liveR, fun below => ?_⟩
    rcases below.cases_child with eq | ⟨q, step, -⟩
    · exact other (eq ▸ upR)
    · have : fs.parentOf r = some q := step
      rw [top] at this
      contradiction
  · rcases Option.eq_none_or_eq_some (t.fs.parentOf r) with none | ⟨q, step⟩
    · exact none
    · have : fs.parentOf r = some q := trims.fewer r q step
      rw [top] at this
      contradiction
  · rw [parent x hx, trims.name]
    exact h.consistent.child x (trims.shrinks x hx) (trims.root ▸ top)
  · rw [trims.number, trims.number] at same
    exact h.consistent.unique x (trims.shrinks x hx) y (trims.shrinks y hy) same
  · rw [trims.number]
    exact h.consistent.positive x (trims.shrinks x hx)
  · rw [trims.name, trims.name] at same
    exact h.consistent.siblings x (trims.shrinks x hx) y (trims.shrinks y hy) q
      (trims.fewer x q upX) (trims.fewer y q upY) same
  · rw [trims.number]
    exact h.root_number r' (trims.root ▸ up')
  · rw [trims.nextInodeNum]
    exact h.next_lt
  · rw [trims.number, trims.nextInodeNum]
    rw [trims.nextInodeNum] at positive
    exact h.fresh positive x (trims.shrinks x hx)

end Filesystem

/-! ## Runs -/

/-- The request does none of the things that spoil the table. The last condition on a rename is
that no other child of the new directory has the new name; the one before it is the host's. -/
def FsRequest.KeepsTable (env : FsEnv) (fs : Filesystem) : FsRequest → Prop
  | .forget ino => ino ≠ 1
  | .lookup ino name => ∀ p, Allocates env fs ino name .getAttr p → 0 < fs.nextInodeNum
  | .mknod ino mode _ name =>
    ∀ p, Allocates env fs ino name (.mknod · mode) p → 0 < fs.nextInodeNum
  | .rename ino newDir oldname newname => ∀ p a b, Renames env fs ino newDir oldname newname p a b →
    env.alloc 2 = true ∧ ¬Below fs.parentOf a b ∧
      ∀ c ∈ (fs.inode b).subInodes, (fs.inode c).name = some newname → c = a
  | _ => True

theorem TableStep.keeps {env : FsEnv} {fs fs' : Filesystem} {request : FsRequest}
    (step : TableStep env fs request fs') (h : fs.TableInv) (keeps : request.KeepsTable env fs) :
    fs'.TableInv := by
  have shaped := h.consistent.shaped
  have link {p : InodeId} {ino number next : Int} {name : FileName}
      {op : FileName → HostFileOp} (made : Allocates env fs ino name op p)
      (positive : 0 < fs.nextInodeNum)
      (chosen : fs.allocNumber fs.listInodes.length fs.nextInodeNum = .ok (number, next)) :
      (fs.linkInode (some p) (some name) number next).TableInv := by
    obtain ⟨r, up, live, -⟩ := h.consistent.root
    have := h.fresh positive r live
    rw [h.root_number r up] at this
    rw [Filesystem.allocNumber_fresh shaped this (h.fresh positive)] at chosen
    obtain ⟨rfl, rfl⟩ := Prod.mk.inj (Except.ok.inj chosen)
    exact h.link (Filesystem.inoNumToInode_some shaped made.dir).1 made.missing positive
  cases step with
  | same => exact h
  | mount pathname options basePath =>
    exact h.congr (shaped.congr rfl rfl rfl rfl (fun _ => rfl) (fun _ => rfl) fun _ => rfl)
      rfl rfl rfl (fun _ => rfl) (fun _ => rfl) fun _ => rfl
  | names request ino a names => exact h.modifyNames a names
  | lookup ino name p number next made chosen => exact link made (keeps p made) chosen
  | mknod ino mode rdev name p number next made chosen => exact link made (keeps p made) chosen
  | rename ino newDir oldname newname p a b moved =>
    obtain ⟨granted, apart, free⟩ := keeps p a b moved
    obtain ⟨child, -⟩ := Filesystem.findIn_some moved.found
    obtain ⟨live, up⟩ := (shaped.mem_children p
      (Filesystem.inoNumToInode_some shaped moved.dir).1 a).mp child
    rw [if_pos granted]
    exact h.rename live up (Filesystem.inoNumToInode_some shaped moved.target).1 apart free
  | forget ino a found clean =>
    obtain ⟨live, -, number⟩ := Filesystem.inoNumToInode_some shaped found
    refine h.forget live fun root => keeps ?_
    have := h.root_number a root
    by_cases eq : ino = 1
    · exact eq
    · exact (number eq).symm.trans this

theorem coMonitorFileSystemInit_tableInv (pathname : FileName) :
    (coMonitorFileSystemInit pathname).fs.TableInv := by
  have only {a : InodeId} (ha : a ∈ (coMonitorFileSystemInit pathname).fs.listInodes) : a = 0 :=
    List.mem_singleton.mp ha
  refine ⟨⟨coMonitorFileSystemInit_shaped pathname, ⟨0, rfl, List.mem_singleton.mpr rfl, rfl⟩,
    fun a ha other => ?_, fun a ha b hb _ => ?_, fun a ha => ?_, fun a ha b hb _ _ _ _ => ?_⟩,
    fun r up => ?_, (show (2 : Int) < 2147483648 by decide), fun _ a ha => ?_⟩
  · exact absurd (only ha ▸ rfl) other
  · rw [only ha, only hb]
  · obtain rfl := only ha
    exact Int.one_pos
  · rw [only ha, only hb]
  · obtain rfl := Option.some.inj up
    rfl
  · obtain rfl := only ha
    exact (show (1 : Int) < 2 by decide)

/-- In every run of requests that do none of these things the table stays consistent. -/
theorem requests_keep_table (pathname : FileName) (events : List (FsEnv × FsRequest))
    (ok : RunOk FsWorld.step (fun w e => e.2.KeepsTable e.1 w.fs) events
      (coMonitorFileSystemInit pathname)) :
    (run FsWorld.step events (coMonitorFileSystemInit pathname)).fs.Consistent := by
  have preserves : ∀ (w : FsWorld) (e : FsEnv × FsRequest), w.fs.TableInv →
      e.2.KeepsTable e.1 w.fs → (w.step e).fs.TableInv :=
    fun w e h keeps => (step_tableStep e.1 e.2 w).keeps h keeps
  have inv : (fun w : FsWorld => w.fs.TableInv)
      (run FsWorld.step events (coMonitorFileSystemInit pathname)) :=
    run_invariant preserves (coMonitorFileSystemInit_tableInv pathname) ok
  exact inv.consistent

/-- A file is made and looked up, another one is looked up, and the first is forgotten. -/
theorem requests_keep_table_fresh :
    (run FsWorld.step [(grantingEnv, .mknod 1 0 0 [0x61]), (grantingEnv, .lookup 1 [0x61]),
      (grantingEnv, .lookup 1 [0x62]), (grantingEnv, .forget 2)]
      (coMonitorFileSystemInit [0x43])).fs.Consistent :=
  requests_keep_table [0x43] _ ⟨fun _ _ => by decide, fun _ _ => by decide,
    fun _ _ => by decide, (show (2 : Int) ≠ 1 by decide), trivial⟩

/-- Renaming `a` onto `b` leaves two children of that name. -/
theorem rename_onto_sibling :
    ¬(run FsWorld.step [(grantingEnv, .lookup 1 [0x61]), (grantingEnv, .lookup 1 [0x62]),
      (grantingEnv, .rename 1 1 [0x61] [0x62])] (coMonitorFileSystemInit [0x43])).fs.Consistent := by
  intro h
  have same := h.siblings 1 (by decide) 2 (by decide) 0 (by decide) (by decide) (by decide)
  exact absurd same (by decide)

end CoLinux
