import CoLinux.Kernel.Proofs.FilesystemSteps
import CoLinux.Lib.Run

/-!
# Freeing the inode table

`co_monitor_file_system_free` frees the inodes in the order of the flat list, which has the root
first, and a child unlinks itself from its parent when it is freed. `free_inode_with_children`
goes from the leaves up. Neither frees the `co_filesystem_dir_names_t` of an open directory.
-/

namespace CoLinux

open Lib

namespace Filesystem

/-- What holds of the table whatever the requests are, as long as it stays a tree. -/
structure Planted (fs : Filesystem) : Prop where
  shaped : fs.Shaped
  root : fs.root ≠ none
  head : fs.listInodes ≠ [] → fs.listInodes.head? = fs.root
  top : ∀ r, fs.root = some r → r ∈ fs.listInodes → fs.parentOf r = none
  orphan : ∀ a ∈ fs.listInodes, fs.parentOf a = none → fs.root = some a

/-- Everything the table holds is freed once, and nothing is used after that. -/
def FreedWhole (fs : Filesystem) : Prop :=
  fs.teardown.coMonitorFileSystemFree.ledger = ⟨[], []⟩

/-- What belongs to `a` and the inodes below it is freed once and nothing else is, nothing is used
after that, and these inodes are the ones that leave the table. -/
structure FreedBelow (fs : Filesystem) (a : InodeId) : Prop where
  faults : (fs.teardown.freeInodeWithChildren a).ledger.faults = []
  table : ∀ x, x ∈ (fs.teardown.freeInodeWithChildren a).fs.listInodes ↔
    x ∈ fs.listInodes ∧ ¬Below fs.parentOf a x
  live : ∀ b, b ∈ (fs.teardown.freeInodeWithChildren a).ledger.live ↔
    b ∈ fs.teardown.ledger.live ∧ ¬Below fs.parentOf a b.owner

variable {fs : Filesystem} {a : InodeId}

/-! ## One subtree -/

theorem mem_teardown {b : FsBlock} (hb : b ∈ fs.teardown.ledger.live) :
    b.owner ∈ fs.listInodes ∧ b ∈ (fs.inode b.owner).blocks b.owner := by
  obtain ⟨x, hx, hb⟩ := List.mem_flatMap.mp hb
  rw [Inode.owner_blocks hb]
  exact ⟨hx, hb⟩

theorem names_not_freed (i : Inode) (a x : InodeId) : .names x ∉ i.freedBlocks a := by
  unfold Inode.freedBlocks
  split <;> split <;> simp

theorem blocks_freed {i : Inode} (none : i.names = none) (a : InodeId) :
    ∀ b ∈ i.blocks a, b ∈ i.freedBlocks a := by
  unfold Inode.freedBlocks Inode.blocks
  rw [none]
  split <;> simp

theorem names_block {i : Inode} (some : i.names ≠ none) (a : InodeId) : .names a ∈ i.blocks a := by
  unfold Inode.blocks
  rw [if_pos (Option.isSome_iff_ne_none.mpr some)]
  simp

theorem freedBelow_iff (shaped : fs.Shaped) (live : a ∈ fs.listInodes) :
    fs.FreedBelow a ↔ ∀ x ∈ fs.listInodes, Below fs.parentOf a x → (fs.inode x).names = none := by
  obtain ⟨trims, left⟩ := FsTeardown.freeInodeWithChildren_spec (t := fs.teardown) shaped
    (FsTeardown.teardown_held shaped) live
  constructor
  · intro freed x hx below
    refine Decidable.byContradiction fun named => ?_
    have held : .names x ∈ fs.teardown.ledger.live :=
      List.mem_flatMap.mpr ⟨x, hx, names_block named x⟩
    refine ((freed.live (.names x)).mp ((trims.ledger _).mpr ⟨held, ?_⟩)).2 below
    exact fun y _ hy => absurd hy (names_not_freed _ y x)
  · refine fun closed => ⟨trims.held.faults, left, fun b => ?_⟩
    rw [trims.ledger]
    refine and_congr_right fun hb => ?_
    obtain ⟨hx, hb⟩ := mem_teardown hb
    constructor
    · intro kept below
      have freed := blocks_freed (closed b.owner hx below) b.owner b hb
      exact ((left b.owner).mp (kept b.owner hx freed)).2 below
    · intro apart y _ freed
      have : y = b.owner := (Inode.owner_blocks (Inode.freedBlocks_subset _ y b freed)).symm
      exact this ▸ (left b.owner).mpr ⟨hx, apart⟩

/-! ## The whole table -/

theorem touch_faults {inodes : List InodeId} {l : Lib.Ledger FsBlock} :
    l.faults ≠ [] → (inodes.foldl FsTeardown.touchInode l).faults ≠ [] := by
  induction inodes generalizing l with
  | nil => exact id
  | cons x inodes ih =>
    intro faulty
    refine ih ?_
    unfold FsTeardown.touchInode
    split
    · exact faulty
    · exact List.cons_ne_nil _ _

theorem releaseAll_faults {blocks : List FsBlock} {l : Lib.Ledger FsBlock} :
    l.faults ≠ [] → (l.releaseAll blocks).faults ≠ [] := by
  induction blocks generalizing l with
  | nil => exact id
  | cons x blocks ih =>
    intro faulty
    refine ih ?_
    unfold Ledger.release
    split
    · exact faulty
    · exact List.cons_ne_nil _ _

end Filesystem

namespace FsTeardown

variable {t : FsTeardown} {a r : InodeId}

theorem touch_freed (gone : .inode r ∉ t.ledger.live) {inodes : List InodeId} (mem : r ∈ inodes) :
    (t.touch inodes).ledger.faults ≠ [] := by
  have live (l : Lib.Ledger FsBlock) (x : InodeId) : (touchInode l x).live = l.live := by
    unfold touchInode
    split <;> rfl
  unfold touch
  generalize t.ledger = l at gone
  induction inodes generalizing l with
  | nil => exact absurd mem List.not_mem_nil
  | cons x inodes ih =>
    rw [List.foldl_cons]
    rcases List.mem_cons.mp mem with rfl | mem
    · refine Filesystem.touch_faults ?_
      rw [touchInode, if_neg gone]
      exact List.cons_ne_nil _ _
    · exact ih mem (touchInode l x) (by rwa [live])

theorem touch_live (t : FsTeardown) (inodes : List InodeId) :
    (t.touch inodes).ledger.live = t.ledger.live := by
  unfold touch
  generalize t.ledger = l
  induction inodes generalizing l with
  | nil => rfl
  | cons x inodes ih =>
    refine (ih _).trans ?_
    unfold touchInode
    split <;> rfl

theorem unlinkInode_live (t : FsTeardown) (a : InodeId) :
    (t.unlinkInode a).ledger.live = t.ledger.live := by
  have lists : ((t.delFlatNode a).delHashNode a).ledger.live = t.ledger.live :=
    (touch_live _ _).trans (touch_live _ _)
  unfold unlinkInode
  dsimp only
  split
  · exact lists
  · exact (touch_live _ _).trans lists

theorem unlinkInode_faults (faulty : t.ledger.faults ≠ []) (a : InodeId) :
    (t.unlinkInode a).ledger.faults ≠ [] := by
  have lists : ((t.delFlatNode a).delHashNode a).ledger.faults ≠ [] :=
    Filesystem.touch_faults (Filesystem.touch_faults faulty)
  unfold unlinkInode
  dsimp only
  split
  · exact lists
  · exact Filesystem.touch_faults lists

theorem freeInode_faults (faulty : t.ledger.faults ≠ []) (a : InodeId) :
    (t.freeInode a).ledger.faults ≠ [] := by
  rw [freeInode_unlinked]
  exact Filesystem.releaseAll_faults (unlinkInode_faults faulty a)

theorem freeList_faults (faulty : t.ledger.faults ≠ []) (turns : Nat) :
    (freeList turns t).ledger.faults ≠ [] := by
  induction turns generalizing t with
  | zero => exact faulty
  | succ turns ih =>
    unfold freeList
    split
    · exact faulty
    · exact ih (freeInode_faults faulty _)

/-- Unlinking the only child of a freed inode writes the inode's list head. -/
theorem freeInode_last_child (gone : .inode r ∉ t.ledger.live)
    (up : t.fs.parentOf a = some r) (last : (t.fs.inode r).subInodes = [a]) :
    (t.freeInode a).ledger.faults ≠ [] := by
  rw [freeInode_unlinked]
  refine Filesystem.releaseAll_faults ?_
  have lists : ((t.delFlatNode a).delHashNode a).ledger.live = t.ledger.live :=
    (touch_live _ _).trans (touch_live _ _)
  unfold unlinkInode
  have up' : (((t.delFlatNode a).delHashNode a).fs.inode a).parent = some r := up
  have last' : (((t.delFlatNode a).delHashNode a).fs.inode r).subInodes = [a] := last
  simp only [up']
  unfold delNode
  rw [last']
  refine touch_freed (by rwa [lists]) ?_
  simp [listNeighbours]

/-- A freed inode with children is written to before the list is empty. -/
theorem freeList_orphans {turns : Nat} (nodup : t.fs.listInodes.Nodup)
    (enough : t.fs.listInodes.length ≤ turns) (gone : .inode r ∉ t.ledger.live)
    (some_child : (t.fs.inode r).subInodes ≠ []) (once : (t.fs.inode r).subInodes.Nodup)
    (children : ∀ x, x ∈ (t.fs.inode r).subInodes ↔
      x ∈ t.fs.listInodes ∧ t.fs.parentOf x = some r) :
    (freeList turns t).ledger.faults ≠ [] := by
  induction turns generalizing t with
  | zero =>
    obtain ⟨c, rest, all⟩ := List.exists_cons_of_ne_nil some_child
    have := ((children c).mp (all ▸ List.mem_cons_self)).1
    rw [List.eq_nil_of_length_eq_zero (Nat.le_zero.mp enough)] at this
    exact absurd this List.not_mem_nil
  | succ turns ih =>
    unfold freeList
    split
    · rename_i empty
      obtain ⟨c, rest, all⟩ := List.exists_cons_of_ne_nil some_child
      have := ((children c).mp (all ▸ List.mem_cons_self)).1
      rw [empty] at this
      exact absurd this List.not_mem_nil
    rename_i a rest all
    have live : a ∈ t.fs.listInodes := all ▸ List.mem_cons_self
    have list : (t.freeInode a).fs.listInodes = t.fs.listInodes.erase a := by
      rw [freeInode_fs]
      rfl
    have parent : (t.freeInode a).fs.parentOf = t.fs.parentOf := by
      rw [freeInode_fs, Filesystem.dropInode_parentOf]
    have kept : ((t.freeInode a).fs.inode r).subInodes = if t.fs.parentOf a = some r
        then (t.fs.inode r).subInodes.erase a else (t.fs.inode r).subInodes := by
      rw [freeInode_fs, Filesystem.dropInode_inode]
      split <;> rfl
    have still : .inode r ∉ (t.freeInode a).ledger.live := by
      rw [freeInode_unlinked]
      intro there
      refine gone ?_
      rw [← unlinkInode_live t a]
      exact Ledger.live_of_releaseAll there
    have shorter : (t.freeInode a).fs.listInodes.length ≤ turns := by
      rw [list, List.length_erase_of_mem live]
      omega
    have mem (x : InodeId) :
        x ∈ (t.freeInode a).fs.listInodes ↔ x ≠ a ∧ x ∈ t.fs.listInodes := by
      rw [list]
      exact nodup.mem_erase_iff
    by_cases up : t.fs.parentOf a = some r
    · rw [if_pos up] at kept
      by_cases last : (t.fs.inode r).subInodes = [a]
      · exact freeList_faults (freeInode_last_child gone up last) turns
      · refine ih (list ▸ nodup.erase a) shorter still ?_ (kept ▸ once.erase a) fun x => ?_
        · rw [kept]
          intro none
          have child := (children a).mpr ⟨live, up⟩
          have length := List.length_erase_of_mem child
          rw [none] at length
          obtain ⟨c, only⟩ := List.length_eq_one_iff.mp (show (t.fs.inode r).subInodes.length = 1 by
            have := List.length_pos_of_mem child
            simp only [List.length_nil] at length
            omega)
          rw [only] at child last
          exact last (by rw [List.mem_singleton.mp child])
        · rw [kept, mem, parent, once.mem_erase_iff, children, and_assoc]
    · rw [if_neg up] at kept
      refine ih (list ▸ nodup.erase a) shorter still (kept ▸ some_child) (kept ▸ once) fun x => ?_
      rw [kept, mem, parent, children, and_assoc]
      exact ⟨fun h => ⟨fun eq => up (eq ▸ h.2), h⟩, fun h => h.2⟩

end FsTeardown

namespace Filesystem

variable {fs : Filesystem}

/-- A second inode hangs below the first one, the root. -/
theorem Planted.root_children (h : fs.Planted) {r : InodeId} (root : fs.root = some r)
    (live : r ∈ fs.listInodes) {x : InodeId} (hx : x ∈ fs.listInodes) (other : x ≠ r) :
    (fs.inode r).subInodes ≠ [] := by
  have rooted := h.shaped.rooted x hx
  induction rooted with
  | intro x _ ih =>
    rcases Option.eq_none_or_eq_some (fs.parentOf x) with none | ⟨q, up⟩
    · have := h.orphan x hx none
      rw [root] at this
      exact absurd (Option.some.inj this).symm other
    · by_cases this : q = r
      · subst this
        exact List.ne_nil_of_mem ((h.shaped.mem_children q live x).mpr ⟨hx, up⟩)
      · exact ih q up (h.shaped.parent_mem x q hx up) this

theorem freedWhole_of_root (h : fs.Planted)
    (only : ∀ a ∈ fs.listInodes, fs.root = some a ∧ (fs.inode a).names = none) :
    fs.FreedWhole := by
  unfold FreedWhole FsTeardown.coMonitorFileSystemFree
  have held := FsTeardown.teardown_held h.shaped
  cases list : fs.listInodes with
  | nil =>
    have list' : fs.teardown.fs.listInodes = [] := list
    have live : fs.teardown.ledger.live = [] := by
      unfold Filesystem.teardown
      rw [list]
      rfl
    rw [list']
    exact congrArg (Ledger.mk · []) live
  | cons r rest =>
    have alone : rest = [] := List.eq_nil_iff_forall_not_mem.mpr fun x hx => by
      have nodup := h.shaped.nodup
      rw [list] at nodup
      have first := (only r (list ▸ List.mem_cons_self)).1
      have same := (only x (list ▸ List.mem_cons_of_mem _ hx)).1
      rw [first] at same
      exact (List.nodup_cons.mp nodup).1 (Option.some.inj same ▸ hx)
    subst alone
    have list' : fs.teardown.fs.listInodes = [r] := list
    have live : r ∈ fs.listInodes := list ▸ List.mem_cons_self
    rw [list']
    show (FsTeardown.freeList 1 fs.teardown).ledger = _
    unfold FsTeardown.freeList
    rw [list']
    show (fs.teardown.freeInode r).ledger = _
    rw [FsTeardown.freeInode_eq held h.shaped live, FsTeardown.freeInode_ledger held live]
    refine congrArg (Ledger.mk · []) (List.filter_eq_nil_iff.mpr fun b hb => ?_)
    obtain ⟨x, hx, hb⟩ := List.mem_flatMap.mp hb
    rw [list] at hx
    obtain rfl := List.mem_singleton.mp hx
    exact fun kept => of_decide_eq_true kept (blocks_freed (only x live).2 x b hb)

theorem freedWhole_iff (h : fs.Planted) :
    fs.FreedWhole ↔ ∀ a ∈ fs.listInodes, fs.root = some a ∧ (fs.inode a).names = none := by
  refine ⟨fun freed => ?_, freedWhole_of_root h⟩
  unfold FreedWhole FsTeardown.coMonitorFileSystemFree at freed
  have held := FsTeardown.teardown_held h.shaped
  cases list : fs.listInodes with
  | nil => exact fun a ha => absurd ha List.not_mem_nil
  | cons r rest =>
    have list' : fs.teardown.fs.listInodes = r :: rest := list
    have live : r ∈ fs.listInodes := list ▸ List.mem_cons_self
    have root : fs.root = some r := by
      have := h.head (list ▸ List.cons_ne_nil _ _)
      rw [list] at this
      exact this.symm
    rw [list', List.length_cons] at freed
    unfold FsTeardown.freeList at freed
    rw [list'] at freed
    have step := FsTeardown.freeInode_eq held h.shaped live
    rw [FsTeardown.freeInode_ledger held live] at step
    -- the root goes first, so its children would be unlinked from a freed list head
    have alone : rest = [] := by
      refine Decidable.byContradiction fun more => ?_
      obtain ⟨x, rest', rfl⟩ := List.exists_cons_of_ne_nil more
      have nodup := h.shaped.nodup
      rw [list] at nodup
      have other : x ≠ r := fun eq => (List.nodup_cons.mp nodup).1 (eq ▸ List.mem_cons_self)
      have hx : x ∈ fs.listInodes := list ▸ List.mem_cons_of_mem _ List.mem_cons_self
      have child := h.root_children root live hx other
      have top := h.top r root live
      have unchanged : (fs.dropInode r).inode r = fs.inode r := by
        rw [dropInode_inode, top]
        exact if_neg (by simp)
      have faulty : (FsTeardown.freeList (x :: rest').length
          (fs.teardown.freeInode r)).ledger.faults ≠ [] := by
        rw [step]
        refine FsTeardown.freeList_orphans (r := r) (h.shaped.nodup.erase r) ?_ ?_ ?_ ?_
          fun y => ?_
        · show (fs.listInodes.erase r).length ≤ _
          refine Nat.le_of_eq ?_
          rw [list, List.erase_cons_head]
        · intro there
          have := (List.mem_filter.mp there).2
          unfold Inode.freedBlocks at this
          simp at this
        · show ((fs.dropInode r).inode r).subInodes ≠ []
          rw [unchanged]
          exact child
        · show ((fs.dropInode r).inode r).subInodes.Nodup
          rw [unchanged]
          exact h.shaped.nodup_children r live
        · show y ∈ ((fs.dropInode r).inode r).subInodes ↔ y ∈ fs.listInodes.erase r ∧
            (fs.dropInode r).parentOf y = some r
          rw [unchanged, h.shaped.mem_children r live, dropInode_parentOf,
            h.shaped.nodup.mem_erase_iff, and_assoc]
          refine ⟨fun hy => ⟨fun eq => ?_, hy⟩, fun hy => hy.2⟩
          rw [eq, top] at hy
          exact absurd hy.2 (by simp)
      exact faulty (congrArg Ledger.faults freed)
    subst alone
    intro a ha
    obtain rfl := List.mem_singleton.mp ha
    refine ⟨root, Decidable.byContradiction fun named => ?_⟩
    have held : .names a ∈ fs.teardown.ledger.live :=
      List.mem_flatMap.mpr ⟨a, live, names_block named a⟩
    have kept : .names a ∈ (fs.teardown.freeInode a).ledger.live := by
      rw [step]
      exact List.mem_filter.mpr ⟨held, decide_eq_true (names_not_freed _ a a)⟩
    have freed : (fs.teardown.freeInode a).ledger = ⟨[], []⟩ := freed
    rw [freed] at kept
    exact List.not_mem_nil kept

/-! ## Runs -/

theorem Planted.congr {fs fs' : Filesystem} (h : fs.Planted) (shaped : fs'.Shaped)
    (list : fs'.listInodes = fs.listInodes) (root : fs'.root = fs.root)
    (parent : fs'.parentOf = fs.parentOf) : fs'.Planted where
  shaped := shaped
  root := root ▸ h.root
  head := by
    rw [list, root]
    exact h.head
  top := by
    rw [list, root, parent]
    exact h.top
  orphan := by
    rw [list, root, parent]
    exact h.orphan

theorem Planted.root_mem (h : fs.Planted) {a : InodeId} (live : a ∈ fs.listInodes) :
    ∃ r rest, fs.root = some r ∧ fs.listInodes = r :: rest := by
  obtain ⟨r, rest, list⟩ := List.exists_cons_of_ne_nil (List.ne_nil_of_mem live)
  have := h.head (List.ne_nil_of_mem live)
  rw [list] at this
  exact ⟨r, rest, this.symm, list⟩

theorem Planted.below_root (h : fs.Planted) {r : InodeId} (root : fs.root = some r)
    {x : InodeId} (hx : x ∈ fs.listInodes) : Below fs.parentOf r x := by
  have rooted := h.shaped.rooted x hx
  induction rooted with
  | intro x _ ih =>
    rcases Option.eq_none_or_eq_some (fs.parentOf x) with none | ⟨q, up⟩
    · have := h.orphan x hx none
      rw [root] at this
      exact Option.some.inj this ▸ .refl r
    · exact .child up (ih q up (h.shaped.parent_mem x q hx up))

theorem Planted.link (h : fs.Planted) {p : InodeId} (live : p ∈ fs.listInodes)
    (name : Option FileName) (number next : Int) :
    (fs.linkInode (some p) name number next).Planted := by
  have below (q : InodeId) (hq : some p = some q) : q < fs.heap :=
    Option.some.inj hq ▸ h.shaped.heap p live
  obtain ⟨r, rest, root, list⟩ := h.root_mem live
  have old {x : InodeId} (hx : x ∈ fs.listInodes) : x ≠ fs.heap :=
    Nat.ne_of_lt (h.shaped.heap x hx)
  have liveR : r ∈ fs.listInodes := list ▸ List.mem_cons_self
  refine ⟨h.shaped.linkInode fun q hq => Option.some.inj hq ▸ live, h.root, fun _ => ?_,
    fun r' up _ => ?_, fun a ha none => ?_⟩
  · show (fs.listInodes ++ [fs.heap]).head? = fs.root
    rw [list, root]
    rfl
  · have same : fs.root = some r' := up
    rw [root] at same
    obtain rfl := Option.some.inj same
    rw [linkInode_parentOf below, if_neg (old liveR)]
    exact h.top r root liveR
  · rw [linkInode_parentOf below] at none
    split at none
    · contradiction
    · rename_i other
      have ha : a ∈ fs.listInodes ++ [fs.heap] := ha
      refine h.orphan a ((List.mem_append.mp ha).resolve_right fun new => other ?_) none
      exact List.mem_singleton.mp new

theorem Planted.rename (h : fs.Planted) {a p b : InodeId} {name : Option FileName}
    (live : a ∈ fs.listInodes) (up : fs.parentOf a = some p) (target : b ∈ fs.listInodes)
    (apart : ¬Below fs.parentOf a b) : (fs.renameInode a b name).Planted := by
  have ne := h.shaped.ne_parent live up
  have ne' : a ≠ b := fun eq => apart (eq ▸ Below.refl a)
  obtain ⟨list, -, root, -⟩ := renameInode_lists fs a b name
  refine ⟨h.shaped.renameInode live up target apart, root ▸ h.root, ?_, fun r up' hr => ?_,
    fun x hx none => ?_⟩
  · rw [list, root]
    exact h.head
  · rw [list] at hr
    rw [root] at up'
    have top := h.top r up' hr
    rw [renameInode_parentOf up ne ne', if_neg]
    · exact top
    · intro eq
      rw [← eq, top] at up
      contradiction
  · rw [list] at hx
    rw [root]
    rw [renameInode_parentOf up ne ne'] at none
    split at none
    · contradiction
    · exact h.orphan x hx none

theorem Planted.forget (h : fs.Planted) {a : InodeId} (live : a ∈ fs.listInodes) :
    (fs.teardown.freeInodeWithChildren a).fs.Planted := by
  obtain ⟨trims, left⟩ := FsTeardown.freeInodeWithChildren_spec (t := fs.teardown) h.shaped
    (FsTeardown.teardown_held h.shaped) live
  obtain ⟨r, rest, root, list⟩ := h.root_mem live
  have liveR : r ∈ fs.listInodes := list ▸ List.mem_cons_self
  generalize fs.teardown.freeInodeWithChildren a = t at *
  have root' : t.fs.root = some r := trims.root.trans root
  refine ⟨trims.shaped, fun none => ?_, fun some => ?_, fun r' up hr => ?_, fun x hx none => ?_⟩
  · rw [root'] at none
    contradiction
  · have sublist : t.fs.listInodes.Sublist (r :: rest) := list ▸ trims.sublist
    rcases List.sublist_cons_iff.mp sublist with short | ⟨others, all, -⟩
    · -- without the root in it the list is empty
      obtain ⟨x, hx⟩ := List.exists_mem_of_ne_nil _ some
      have gone : r ∉ t.fs.listInodes := fun there => by
        have nodup := h.shaped.nodup
        rw [list] at nodup
        exact (List.nodup_cons.mp nodup).1 (short.subset there)
      have below : Below fs.parentOf a r := by
        refine Classical.byContradiction fun apart => gone ((left r).mpr ⟨liveR, apart⟩)
      exact absurd (below.trans (h.below_root root (trims.shrinks x hx))) ((left x).mp hx).2
    · rw [all, root']
      rfl
  · rw [trims.root] at up
    rcases Option.eq_none_or_eq_some (t.fs.parentOf r') with none | ⟨q, step⟩
    · exact none
    · have := h.top r' up (trims.shrinks r' hr)
      have step : fs.parentOf r' = Option.some q := trims.fewer r' q step
      rw [this] at step
      contradiction
  · rw [trims.root]
    refine h.orphan x (trims.shrinks x hx) ?_
    exact (trims.orphans x hx none).resolve_right List.not_mem_nil

end Filesystem

/-- A rename does not move an inode below itself. -/
def FsRequest.KeepsTree (env : FsEnv) (fs : Filesystem) : FsRequest → Prop
  | .rename ino newDir oldname newname => ∀ p a b, Renames env fs ino newDir oldname newname p a b →
    ¬Below fs.parentOf a b
  | _ => True

theorem TableStep.planted {env : FsEnv} {fs fs' : Filesystem} {request : FsRequest}
    (step : TableStep env fs request fs') (h : fs.Planted) (keeps : request.KeepsTree env fs) :
    fs'.Planted := by
  cases step with
  | same => exact h
  | mount pathname options basePath =>
    exact h.congr (h.shaped.congr rfl rfl rfl rfl (fun _ => rfl) (fun _ => rfl) fun _ => rfl)
      rfl rfl rfl
  | names request ino a names =>
    have shaped := h.shaped.modifyNames a names
    exact h.congr shaped rfl rfl (Filesystem.modifyNames_parentOf fs a names)
  | lookup ino name p number next made chosen =>
    exact h.link (Filesystem.inoNumToInode_some h.shaped made.dir).1 _ _ _
  | mknod ino mode rdev name p number next made chosen =>
    exact h.link (Filesystem.inoNumToInode_some h.shaped made.dir).1 _ _ _
  | rename ino newDir oldname newname p a b moved =>
    obtain ⟨child, -⟩ := Filesystem.findIn_some moved.found
    obtain ⟨live, up⟩ := (h.shaped.mem_children p
      (Filesystem.inoNumToInode_some h.shaped moved.dir).1 a).mp child
    exact h.rename live up (Filesystem.inoNumToInode_some h.shaped moved.target).1
      (keeps p a b moved)
  | forget ino a found clean =>
    exact h.forget (Filesystem.inoNumToInode_some h.shaped found).1

theorem coMonitorFileSystemInit_planted (pathname : FileName) :
    (coMonitorFileSystemInit pathname).fs.Planted where
  shaped := coMonitorFileSystemInit_shaped pathname
  root := Option.some_ne_none 0
  head _ := rfl
  top r up _ := by
    obtain rfl := Option.some.inj up
    rfl
  orphan a ha _ := by
    obtain rfl := List.mem_singleton.mp ha
    rfl

/-- In a run whose renames keep the table a tree, the whole table is freed properly when only
the root is left, and a subtree when no directory in it is open. -/
theorem teardown_iff (pathname : FileName) (events : List (FsEnv × FsRequest))
    (ok : RunOk FsWorld.step (fun w e => e.2.KeepsTree e.1 w.fs) events
      (coMonitorFileSystemInit pathname)) (fs : Filesystem)
    (reached : (run FsWorld.step events (coMonitorFileSystemInit pathname)).fs = fs) :
    (fs.FreedWhole ↔ ∀ a ∈ fs.listInodes, fs.root = some a ∧ (fs.inode a).names = none) ∧
      ∀ a ∈ fs.listInodes, (fs.FreedBelow a ↔
        ∀ x ∈ fs.listInodes, Below fs.parentOf a x → (fs.inode x).names = none) := by
  have preserves : ∀ (w : FsWorld) (e : FsEnv × FsRequest), w.fs.Planted →
      e.2.KeepsTree e.1 w.fs → (w.step e).fs.Planted :=
    fun w e h keeps => (step_tableStep e.1 e.2 w).planted h keeps
  have inv : (fun w : FsWorld => w.fs.Planted)
      (run FsWorld.step events (coMonitorFileSystemInit pathname)) :=
    run_invariant preserves (coMonitorFileSystemInit_planted pathname) ok
  have planted : fs.Planted := reached ▸ inv
  exact ⟨Filesystem.freedWhole_iff planted, fun a ha =>
    Filesystem.freedBelow_iff planted.shaped ha⟩

/-- A file in the root is forgotten. -/
theorem teardown_iff_file :
    (run FsWorld.step [(grantingEnv, .mknod 1 0 0 [0x61])]
      (coMonitorFileSystemInit [0x43])).fs.FreedBelow 1 := by
  refine ((teardown_iff [0x43] [(grantingEnv, .mknod 1 0 0 [0x61])] ⟨trivial, trivial⟩ _ rfl).2 1
    (by decide)).mpr fun x hx _ => ?_
  rcases List.mem_cons.mp hx with rfl | hx
  · rfl
  · obtain rfl := List.mem_singleton.mp hx
    rfl

/-- With a file in the root, the file unlinks itself from the freed root. With its directory open,
the listing of a forgotten inode stays behind. -/
theorem teardown_file :
    ¬(run FsWorld.step [(grantingEnv, .lookup 1 [0x61])]
        (coMonitorFileSystemInit [0x43])).fs.FreedWhole ∧
      ¬(run FsWorld.step [(grantingEnv, .lookup 1 [0x61]), (grantingEnv, .dirOpen 2)]
        (coMonitorFileSystemInit [0x43])).fs.FreedBelow 1 := by
  refine ⟨fun freed => ?_, fun freed => ?_⟩
  · unfold Filesystem.FreedWhole at freed
    revert freed
    decide +kernel
  · have kept : FsBlock.names 1 ∈ ((run FsWorld.step [(grantingEnv, .lookup 1 [0x61]),
        (grantingEnv, .dirOpen 2)] (coMonitorFileSystemInit [0x43])).fs.teardown.freeInodeWithChildren
          1).ledger.live := by
      decide +kernel
    exact ((freed.live (.names 1)).mp kept).2 (.refl 1)

end CoLinux
