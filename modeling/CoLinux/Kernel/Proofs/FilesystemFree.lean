import CoLinux.Kernel.Proofs.FilesystemTree
import Mathlib.Data.List.Perm.Subperm

/-!
# Freeing inodes

`free_inode_children` frees a few levels of a tree and puts the inodes below them off onto a
list; `free_inode_with_children` repeats that until nothing was put off. `Trims` is what all of
it keeps relative to the tree at the start, with the put-off inodes as `pending`, and `Cut` is
what a part of it does to the inodes outside the subtree it works on.
-/

namespace CoLinux

open Lib

/-- The blocks that `free_inode` frees. -/
def Inode.freedBlocks (i : Inode) (a : InodeId) : List FsBlock :=
  (if i.names.isSome then [.entries a] else []) ++ (if i.name.isSome then [.name a] else []) ++
    [.inode a]

theorem Inode.freedBlocks_subset (i : Inode) (a : InodeId) :
    ∀ b ∈ i.freedBlocks a, b ∈ i.blocks a := by
  intro b hb
  unfold Inode.freedBlocks at hb
  unfold Inode.blocks
  cases hn : i.name <;> cases hs : i.names <;> simp [hn, hs] at hb ⊢ <;> grind

theorem Inode.freedBlocks_nodup (i : Inode) (a : InodeId) : (i.freedBlocks a).Nodup := by
  unfold Inode.freedBlocks
  split <;> split <;> simp

theorem Inode.blocks_congr {i j : Inode} (name : i.name = j.name) (names : i.names = j.names)
    (a : InodeId) : i.blocks a = j.blocks a := by
  unfold Inode.blocks
  rw [name, names]

theorem Inode.freedBlocks_congr {i j : Inode} (name : i.name = j.name)
    (names : i.names = j.names) (a : InodeId) : i.freedBlocks a = j.freedBlocks a := by
  unfold Inode.freedBlocks
  rw [name, names]

theorem Inode.blocks_nodup (i : Inode) (a : InodeId) : (i.blocks a).Nodup := by
  unfold Inode.blocks
  split <;> split <;> simp

/-- The inode a block belongs to. -/
def FsBlock.owner : FsBlock → InodeId
  | .inode a | .name a | .names a | .entries a => a

theorem Inode.owner_blocks {i : Inode} {a : InodeId} {b : FsBlock} (h : b ∈ i.blocks a) :
    b.owner = a := by
  unfold Inode.blocks at h
  cases hn : i.name <;> cases hs : i.names <;> simp [hn, hs] at h <;>
    rcases h with rfl | rfl | rfl | rfl <;> rfl

namespace FsTeardown

/-- The ledger has the blocks of every inode of the table, and nothing went wrong. -/
structure Held (t : FsTeardown) : Prop where
  faults : t.ledger.faults = []
  nodup : t.ledger.live.Nodup
  blocks : ∀ a ∈ t.fs.listInodes, ∀ b ∈ (t.fs.inode a).blocks a, b ∈ t.ledger.live

/-- No inode is added and none gets another parent, and those to keep stay as they are. -/
structure Cut (keep : InodeId → Prop) (t t' : FsTeardown) : Prop where
  shrinks : ∀ x ∈ t'.fs.listInodes, x ∈ t.fs.listInodes
  fewer : ∀ x q, t'.fs.parentOf x = some q → t.fs.parentOf x = some q
  kept : ∀ x ∈ t.fs.listInodes, keep x → x ∈ t'.fs.listInodes ∧ t'.fs.inode x = t.fs.inode x

theorem Cut.trans {keep keep' keep'' : InodeId → Prop} {t t' t'' : FsTeardown}
    (h : Cut keep t t') (h' : Cut keep' t' t'')
    (weaker : ∀ x, keep'' x → keep x ∧ keep' x) : Cut keep'' t t'' where
  shrinks x hx := h.shrinks x (h'.shrinks x hx)
  fewer x q hx := h.fewer x q (h'.fewer x q hx)
  kept x hx k := by
    obtain ⟨live, same⟩ := h.kept x hx (weaker x k).1
    obtain ⟨live', same'⟩ := h'.kept x live (weaker x k).2
    exact ⟨live', same'.trans same⟩

theorem touch_of_live {inodes : List InodeId} {t : FsTeardown}
    (live : ∀ a ∈ inodes, .inode a ∈ t.ledger.live) : t.touch inodes = t := by
  have ledger : inodes.foldl touchInode t.ledger = t.ledger := by
    induction inodes with
    | nil => rfl
    | cons a inodes ih =>
      rw [List.foldl_cons, touchInode, if_pos (live a List.mem_cons_self)]
      exact ih fun b hb => live b (List.mem_cons_of_mem _ hb)
  unfold touch
  rw [ledger]

theorem listNeighbours_subset {owner : Option InodeId} {a : InodeId} {l : List InodeId} :
    ∀ x ∈ listNeighbours owner a l, x ∈ l ∨ owner = some x := by
  intro x hx
  unfold listNeighbours at hx
  rcases List.mem_append.mp hx with hx | hx
  · split at hx
    · exact .inr (Option.mem_toList.mp hx)
    · exact .inl (List.mem_of_getElem? (Option.mem_toList.mp hx))
  · rcases Option.or_eq_some_iff.mp (Option.mem_toList.mp hx) with next | ⟨-, head⟩
    · exact .inl (List.mem_of_getElem? next)
    · exact .inr head

theorem teardown_held {fs : Filesystem} (shaped : fs.Shaped) : fs.teardown.Held where
  faults := rfl
  nodup := by
    refine List.nodup_flatMap.mpr ⟨fun a _ => Inode.blocks_nodup _ a, ?_⟩
    refine shaped.nodup.imp fun {a b} ne x hx hx' => ne ?_
    exact (Inode.owner_blocks hx).symm.trans (Inode.owner_blocks hx')
  blocks a ha _ hb := List.mem_flatMap.mpr ⟨a, ha, hb⟩

section Single

variable {t : FsTeardown} {a p : InodeId}

theorem Held.inode_live (held : t.Held) (live : a ∈ t.fs.listInodes) :
    .inode a ∈ t.ledger.live :=
  held.blocks a live _ List.mem_cons_self

theorem delFlatNode_eq (held : t.Held) (live : a ∈ t.fs.listInodes) :
    t.delFlatNode a = ⟨{ t.fs with listInodes := t.fs.listInodes.erase a }, t.ledger⟩ := by
  have untouched : t.touch (a :: listNeighbours none a t.fs.listInodes) = t := by
    refine touch_of_live fun x hx => ?_
    rcases List.mem_cons.mp hx with rfl | hx
    · exact held.inode_live live
    · rcases listNeighbours_subset x hx with hx | owner
      · exact held.inode_live hx
      · contradiction
  unfold delFlatNode
  rw [untouched]

theorem delHashNode_eq (live : ∀ x ∈ a :: t.fs.inodeHashes (t.fs.bucketOf a),
    .inode x ∈ t.ledger.live) :
    t.delHashNode a =
      ⟨{ t.fs with inodeHashes := (t.fs.dropInode a).inodeHashes }, t.ledger⟩ := by
  have untouched :
      t.touch (a :: listNeighbours none a (t.fs.inodeHashes (t.fs.bucketOf a))) = t := by
    refine touch_of_live fun x hx => live x ?_
    rcases List.mem_cons.mp hx with rfl | hx
    · exact List.mem_cons_self
    · rcases listNeighbours_subset x hx with hx | owner
      · exact List.mem_cons_of_mem _ hx
      · contradiction
  unfold delHashNode
  unfold Filesystem.bucketOf at untouched
  simp only [untouched]
  rfl

theorem delNode_eq (live : ∀ x ∈ p :: a :: (t.fs.inode p).subInodes, .inode x ∈ t.ledger.live) :
    t.delNode p a =
      ⟨t.fs.modifyInode p fun i => { i with subInodes := i.subInodes.erase a }, t.ledger⟩ := by
  have untouched : t.touch (a :: listNeighbours (some p) a (t.fs.inode p).subInodes) = t := by
    refine touch_of_live fun x hx => live x ?_
    rcases List.mem_cons.mp hx with rfl | hx
    · exact List.mem_cons_of_mem _ List.mem_cons_self
    · rcases listNeighbours_subset x hx with hx | owner
      · exact List.mem_cons_of_mem _ (List.mem_cons_of_mem _ hx)
      · exact Option.some.inj owner ▸ List.mem_cons_self
  unfold delNode
  simp only [untouched]

theorem unlinkInode_fs (t : FsTeardown) (a : InodeId) :
    (t.unlinkInode a).fs = { t.fs.dropInode a with inodesCount := t.fs.inodesCount } := by
  unfold unlinkInode
  rcases Option.eq_none_or_eq_some (t.fs.inode a).parent with up | ⟨p, up⟩
  · have unchanged : (t.fs.dropInode a).inode = t.fs.inode := by
      funext x
      rw [Filesystem.dropInode_inode, Filesystem.parentOf, up]
      exact if_neg (by simp)
    have up' : (((t.delFlatNode a).delHashNode a).fs.inode a).parent = none := up
    simp only [up', unchanged]
    rfl
  · have moved : (t.fs.dropInode a).inode =
        (t.fs.modifyInode p fun i => { i with subInodes := i.subInodes.erase a }).inode := by
      funext x
      rw [Filesystem.dropInode_inode, Filesystem.parentOf, up]
      by_cases this : x = p
      · rw [if_pos (by rw [this]), this, Filesystem.modifyInode_self]
      · rw [if_neg (by simpa using Ne.symm this), Filesystem.modifyInode_ne _ _ this]
    have up' : (((t.delFlatNode a).delHashNode a).fs.inode a).parent = some p := up
    simp only [up', moved]
    rfl

theorem unlinkInode_ledger (held : t.Held) (shaped : t.fs.Shaped) (live : a ∈ t.fs.listInodes) :
    (t.unlinkInode a).ledger = t.ledger := by
  have hash : (t.delFlatNode a).delHashNode a = ⟨{ t.fs with
      listInodes := t.fs.listInodes.erase a
      inodeHashes := (t.fs.dropInode a).inodeHashes }, t.ledger⟩ := by
    rw [delFlatNode_eq held live, delHashNode_eq]
    · rfl
    intro x hx
    rcases List.mem_cons.mp hx with rfl | hx
    · exact held.inode_live live
    · exact held.inode_live ((shaped.mem_hash _ x).mp hx).1
  unfold unlinkInode
  rw [hash]
  rcases Option.eq_none_or_eq_some (t.fs.inode a).parent with up | ⟨p, up⟩
  · simp only [up]
  · simp only [up]
    rw [delNode_eq]
    have hp := shaped.parent_mem a p live up
    intro x hx
    rcases List.mem_cons.mp hx with rfl | hx
    · exact held.inode_live hp
    rcases List.mem_cons.mp hx with rfl | hx
    · exact held.inode_live live
    · exact held.inode_live ((shaped.mem_children p hp x).mp hx).1

theorem freeInode_unlinked (t : FsTeardown) (a : InodeId) :
    t.freeInode a =
      ⟨{ (t.unlinkInode a).fs with inodesCount := (t.unlinkInode a).fs.inodesCount - 1 },
        (t.unlinkInode a).ledger.releaseAll (((t.unlinkInode a).fs.inode a).freedBlocks a)⟩ := by
  unfold freeInode Inode.freedBlocks
  generalize t.unlinkInode a = u
  cases hs : (u.fs.inode a).names <;> cases hn : (u.fs.inode a).name <;>
    simp [release, Ledger.releaseAll, hs, hn]

theorem freeInode_fs (t : FsTeardown) (a : InodeId) : (t.freeInode a).fs = t.fs.dropInode a := by
  rw [freeInode_unlinked, unlinkInode_fs]
  rfl

/-- Everything `free_inode` does to an inode of the table. -/
theorem freeInode_eq (held : t.Held) (shaped : t.fs.Shaped) (live : a ∈ t.fs.listInodes) :
    t.freeInode a =
      ⟨t.fs.dropInode a, t.ledger.releaseAll ((t.fs.inode a).freedBlocks a)⟩ := by
  have blocks : ((t.fs.dropInode a).inode a).freedBlocks a = (t.fs.inode a).freedBlocks a := by
    rw [Filesystem.dropInode_inode]
    split <;> rfl
  rw [freeInode_unlinked, unlinkInode_fs, unlinkInode_ledger held shaped live, ← blocks]
  rfl

theorem freeInode_ledger (held : t.Held) (live : a ∈ t.fs.listInodes) :
    t.ledger.releaseAll ((t.fs.inode a).freedBlocks a) =
      ⟨t.ledger.live.filter (· ∉ (t.fs.inode a).freedBlocks a), []⟩ := by
  rw [← held.faults]
  exact Ledger.releaseAll_nodup
    (fun b hb => held.blocks a live b (Inode.freedBlocks_subset _ a b hb))
    (Inode.freedBlocks_nodup _ a) held.nodup

theorem Held.freeInode (held : t.Held) (shaped : t.fs.Shaped) (live : a ∈ t.fs.listInodes) :
    (t.freeInode a).Held := by
  rw [freeInode_eq held shaped live, freeInode_ledger held live]
  refine ⟨rfl, held.nodup.filter _, fun x hx b hb => List.mem_filter.mpr ⟨?_, ?_⟩⟩
  · have hx := (shaped.nodup.mem_erase_iff.mp hx).2
    refine held.blocks x hx b ?_
    rw [Filesystem.dropInode_inode] at hb
    split at hb <;> exact hb
  · have ne := (shaped.nodup.mem_erase_iff.mp hx).1
    have owner := Inode.owner_blocks hb
    refine decide_eq_true fun gone => ne ?_
    exact owner.symm.trans (Inode.owner_blocks (Inode.freedBlocks_subset _ a b gone))

/-- What `moveLater` does to a child of `p`. -/
theorem moveLater_eq {later : List InodeId} (held : t.Held) (shaped : t.fs.Shaped)
    (live : a ∈ t.fs.listInodes) (up : t.fs.parentOf a = some p)
    (listed : ∀ x ∈ later, x ∈ t.fs.listInodes) :
    moveLater p a t later = (⟨t.fs.cutInode p a, t.ledger⟩, a :: later) := by
  have hp := shaped.parent_mem a p live up
  unfold moveLater
  rw [delNode_eq, touch_of_live]
  · rfl
  · intro x hx
    rcases List.mem_cons.mp hx with rfl | hx
    · exact held.inode_live live
    · exact held.inode_live (listed x (List.mem_of_mem_head? (Option.mem_toList.mp hx)))
  · intro x hx
    rcases List.mem_cons.mp hx with rfl | hx
    · exact held.inode_live hp
    rcases List.mem_cons.mp hx with rfl | hx
    · exact held.inode_live live
    · exact held.inode_live ((shaped.mem_children p hp x).mp hx).1

end Single

/-- A state on the way from freeing nothing of the tree `fs` to freeing `i` with everything
below it. -/
structure Trims (fs : Filesystem) (live : List FsBlock) (i : InodeId) (pending : List InodeId)
    (t : FsTeardown) : Prop where
  shaped : t.fs.Shaped
  held : t.Held
  sublist : t.fs.listInodes.Sublist fs.listInodes
  fewer : ∀ x q, t.fs.parentOf x = some q → fs.parentOf x = some q
  orphans : ∀ x ∈ t.fs.listInodes, t.fs.parentOf x = none → fs.parentOf x = none ∨ x ∈ pending
  pending_nodup : pending.Nodup
  pending_mem : ∀ x ∈ pending, x ∈ t.fs.listInodes ∧ t.fs.parentOf x = none ∧
    Below fs.parentOf i x ∧ x ≠ i
  number : ∀ x, (t.fs.inode x).number = (fs.inode x).number
  name : ∀ x, (t.fs.inode x).name = (fs.inode x).name
  names : ∀ x, (t.fs.inode x).names = (fs.inode x).names
  outside : ∀ x ∈ fs.listInodes, ¬Below fs.parentOf i x → x ∈ t.fs.listInodes ∧
    t.fs.inode x = (if i ∈ t.fs.listInodes then fs else fs.dropInode i).inode x
  ledger : ∀ b, b ∈ t.ledger.live ↔ b ∈ live ∧
    ∀ x ∈ fs.listInodes, b ∈ (fs.inode x).freedBlocks x → x ∈ t.fs.listInodes
  root : t.fs.root = fs.root
  nextInodeNum : t.fs.nextInodeNum = fs.nextInodeNum
  basePath : t.fs.basePath = fs.basePath
  heap : t.fs.heap = fs.heap

section Trims

variable {fs : Filesystem} {live : List FsBlock} {i : InodeId} {pending : List InodeId}
  {t : FsTeardown}

theorem Trims.shrinks (h : Trims fs live i pending t) :
    ∀ x ∈ t.fs.listInodes, x ∈ fs.listInodes := fun _ hx => h.sublist.subset hx

theorem Trims.start (shaped : t.fs.Shaped) (held : t.Held) (i : InodeId)
    (root : i ∈ t.fs.listInodes) : Trims t.fs t.ledger.live i [] t where
  shaped := shaped
  held := held
  sublist := List.Sublist.refl _
  fewer _ _ hx := hx
  orphans _ _ up := .inl up
  pending_nodup := List.nodup_nil
  pending_mem _ hx := absurd hx List.not_mem_nil
  number _ := rfl
  name _ := rfl
  names _ := rfl
  outside x hx _ := ⟨hx, by rw [if_pos root]⟩
  ledger b := ⟨fun hb => ⟨hb, fun _ hx _ => hx⟩, fun hb => hb.1⟩
  root := rfl
  nextInodeNum := rfl
  basePath := rfl
  heap := rfl

theorem Trims.freeInode {a : InodeId} {pending' : List InodeId} (h : Trims fs live i pending t)
    (mem : a ∈ t.fs.listInodes) (leaf : (t.fs.inode a).subInodes = [])
    (below : Below fs.parentOf i a) (nodup : pending'.Nodup)
    (left : ∀ x, x ∈ pending' ↔ x ∈ pending ∧ x ≠ a) :
    Trims fs live i pending' (t.freeInode a) := by
  have held := h.held.freeInode h.shaped mem
  have equal := freeInode_eq h.held h.shaped mem
  rw [freeInode_ledger h.held mem] at equal
  have list (x : InodeId) : x ∈ t.fs.listInodes.erase a ↔ x ≠ a ∧ x ∈ t.fs.listInodes :=
    h.shaped.nodup.mem_erase_iff
  rw [equal] at held ⊢
  refine ⟨h.shaped.dropInode mem leaf, held, (List.erase_sublist).trans h.sublist,
    fun x q up => ?_, fun x hx up => ?_, nodup, fun x hx => ?_, fun x => ?_, fun x => ?_,
    fun x => ?_, fun x hx apart => ?_, fun b => ?_, h.root, h.nextInodeNum, h.basePath, h.heap⟩
  · rw [Filesystem.dropInode_parentOf] at up
    exact h.fewer x q up
  · obtain ⟨ne, hx⟩ := (list x).mp hx
    rw [Filesystem.dropInode_parentOf] at up
    exact (h.orphans x hx up).imp_right fun put => (left x).mpr ⟨put, ne⟩
  · obtain ⟨put, ne⟩ := (left x).mp hx
    obtain ⟨hx, up, rest⟩ := h.pending_mem x put
    refine ⟨(list x).mpr ⟨ne, hx⟩, ?_, rest⟩
    rw [Filesystem.dropInode_parentOf]
    exact up
  · rw [Filesystem.dropInode_inode, ← h.number x]
    split <;> rfl
  · rw [Filesystem.dropInode_inode, ← h.name x]
    split <;> rfl
  · rw [Filesystem.dropInode_inode, ← h.names x]
    split <;> rfl
  · obtain ⟨kept, same⟩ := h.outside x hx apart
    have ne : x ≠ a := fun eq => apart (eq ▸ below)
    refine ⟨(list x).mpr ⟨ne, kept⟩, ?_⟩
    show (t.fs.dropInode a).inode x =
      (if i ∈ t.fs.listInodes.erase a then fs else fs.dropInode i).inode x
    rw [Filesystem.dropInode_inode]
    by_cases last : a = i
    · subst last
      have up : t.fs.parentOf a = fs.parentOf a := by
        rcases Option.eq_none_or_eq_some (t.fs.parentOf a) with none | ⟨q, up⟩
        · rcases h.orphans a mem none with up | put
          · rw [none, up]
          · exact absurd rfl (h.pending_mem a put).2.2.2
        · rw [up, h.fewer a q up]
      rw [if_pos mem] at same
      rw [if_neg fun hi => ((list a).mp hi).1 rfl, Filesystem.dropInode_inode, up, same]
    · have unchanged : t.fs.parentOf a ≠ some x := fun up => by
        obtain eq | ⟨q, step, up'⟩ := below.cases_child
        · exact last eq
        · rw [h.fewer a x up] at step
          exact apart (Option.some.inj step ▸ up')
      rw [if_neg unchanged, same]
      simp only [list, Ne.symm last, not_false_eq_true, true_and, ne_eq]
  · have own : (t.fs.inode a).freedBlocks a = (fs.inode a).freedBlocks a :=
      Inode.freedBlocks_congr (h.name a) (h.names a) a
    show b ∈ t.ledger.live.filter _ ↔ _ ∧ ∀ x ∈ fs.listInodes, _ → x ∈ t.fs.listInodes.erase a
    rw [List.mem_filter, h.ledger, own, decide_eq_true_iff, and_assoc]
    refine and_congr_right fun _ => ⟨fun ⟨there, gone⟩ x hx hb => ?_, fun there => ⟨?_, ?_⟩⟩
    · exact (list x).mpr ⟨fun eq => gone (eq ▸ hb), there x hx hb⟩
    · exact fun x hx hb => ((list x).mp (there x hx hb)).2
    · exact fun hb => ((list a).mp (there a (h.shrinks a mem) hb)).1 rfl

theorem Trims.moveLater {a p : InodeId} {later : List InodeId} (h0 : fs.Shaped)
    (h : Trims fs live i pending t) (mem : a ∈ t.fs.listInodes)
    (up : t.fs.parentOf a = some p) (below : Below fs.parentOf i p)
    (listed : ∀ x ∈ later, x ∈ pending) :
    Trims fs live i (a :: pending) (moveLater p a t later).1 := by
  rw [moveLater_eq h.held h.shaped mem up fun x hx => (h.pending_mem x (listed x hx)).1]
  have ne := h.shaped.ne_parent mem up
  have up0 := h.fewer a p up
  have belowA : Below fs.parentOf i a := below.child up0
  have fresh : a ∉ pending := fun put => by
    rw [(h.pending_mem a put).2.1] at up
    contradiction
  have data (x : InodeId) : ((t.fs.cutInode p a).inode x).number = (t.fs.inode x).number ∧
      ((t.fs.cutInode p a).inode x).name = (t.fs.inode x).name ∧
      ((t.fs.cutInode p a).inode x).names = (t.fs.inode x).names := by
    rw [Filesystem.cutInode_inode ne]
    split
    · rename_i eq
      exact eq ▸ ⟨rfl, rfl, rfl⟩
    split
    · rename_i eq
      exact eq ▸ ⟨rfl, rfl, rfl⟩
    · exact ⟨rfl, rfl, rfl⟩
  refine ⟨h.shaped.cutInode mem up, ⟨h.held.faults, h.held.nodup, fun x hx b hb => ?_⟩,
    h.sublist, fun x q hq => h.fewer x q (Filesystem.cutInode_fewer ne x q hq),
    fun x hx hq => ?_, List.nodup_cons.mpr ⟨fresh, h.pending_nodup⟩, fun x hx => ?_,
    fun x => (data x).1.trans (h.number x), fun x => (data x).2.1.trans (h.name x),
    fun x => (data x).2.2.trans (h.names x), fun x hx apart => ?_, h.ledger, h.root,
    h.nextInodeNum, h.basePath, h.heap⟩
  · rw [Inode.blocks_congr (data x).2.1 (data x).2.2] at hb
    exact h.held.blocks x hx b hb
  · rw [Filesystem.cutInode_parentOf ne] at hq
    by_cases eq : x = a
    · exact .inr (eq ▸ List.mem_cons_self)
    · rw [if_neg eq] at hq
      exact (h.orphans x hx hq).imp_right (List.mem_cons_of_mem _)
  · rw [Filesystem.cutInode_parentOf ne]
    rcases List.mem_cons.mp hx with rfl | put
    · refine ⟨mem, if_pos rfl, belowA, fun eq => ?_⟩
      subst eq
      exact (h0.rooted x (h.shrinks x mem)).not_below up0 below
    · obtain ⟨hx, none, rest⟩ := h.pending_mem x put
      refine ⟨hx, ?_, rest⟩
      rw [none]
      split <;> rfl
  · obtain ⟨kept, same⟩ := h.outside x hx apart
    refine ⟨kept, ?_⟩
    show (t.fs.cutInode p a).inode x = _
    rw [Filesystem.cutInode_inode ne, if_neg fun eq : x = a => apart (eq ▸ belowA),
      if_neg fun eq : x = p => apart (eq ▸ below)]
    exact same

end Trims

/-! ## The loops -/

/-- The children of `p` up to `left` are gone, and nothing outside its subtree has changed. -/
structure Emptied (p : InodeId) (left : List InodeId) (t t' : FsTeardown) : Prop where
  cut : Cut (fun x => ¬Below t.fs.parentOf p x) t t'
  own : t'.fs.inode p = { t.fs.inode p with subInodes := left }
  live : p ∈ t'.fs.listInodes

theorem Emptied.refl {p : InodeId} {t : FsTeardown} (live : p ∈ t.fs.listInodes)
    (none : (t.fs.inode p).subInodes = []) : Emptied p [] t t where
  cut := ⟨fun _ hx => hx, fun _ _ hx => hx, fun _ hx _ => ⟨hx, rfl⟩⟩
  own := by rw [← none]
  live := live

theorem Emptied.trans {p : InodeId} {left left' : List InodeId} {t t' t'' : FsTeardown}
    (h : Emptied p left t t') (h' : Emptied p left' t' t'') : Emptied p left' t t'' where
  cut := h.cut.trans h'.cut fun _ apart => ⟨apart, fun below => apart (below.mono h.cut.fewer)⟩
  own := by rw [h'.own, h.own]
  live := h'.live

section Loops

variable {fs : Filesystem} {live : List FsBlock} {i : InodeId}

/-- A loop over the children of `p`, from what one turn does with the first of them. -/
theorem foldl_children {body : FsTeardown × List InodeId → InodeId → FsTeardown × List InodeId}
    {p : InodeId} {tail : List InodeId}
    (turn : ∀ t later a rest, Trims fs live i (later ++ tail) t → p ∈ t.fs.listInodes →
      (t.fs.inode p).subInodes = a :: rest →
      Trims fs live i ((body (t, later) a).2 ++ tail) (body (t, later) a).1 ∧
        Emptied p rest t (body (t, later) a).1)
    {children : List InodeId} {t : FsTeardown} {later : List InodeId}
    (h : Trims fs live i (later ++ tail) t) (mem : p ∈ t.fs.listInodes)
    (all : (t.fs.inode p).subInodes = children) :
    Trims fs live i ((children.foldl body (t, later)).2 ++ tail)
        (children.foldl body (t, later)).1 ∧
      Emptied p [] t (children.foldl body (t, later)).1 := by
  induction children generalizing t later with
  | nil => exact ⟨h, .refl mem all⟩
  | cons a rest ih =>
    obtain ⟨trims, emptied⟩ := turn t later a rest h mem all
    rw [List.foldl_cons]
    have none : ((body (t, later) a).1.fs.inode p).subInodes = rest := by rw [emptied.own]
    obtain ⟨trims', emptied'⟩ := ih trims emptied.live none
    exact ⟨trims', emptied.trans emptied'⟩

theorem moveLater_turn {p : InodeId} (h0 : fs.Shaped) (below : Below fs.parentOf i p)
    {tail later rest : List InodeId} {t : FsTeardown} {a : InodeId}
    (h : Trims fs live i (later ++ tail) t) (mem : p ∈ t.fs.listInodes)
    (all : (t.fs.inode p).subInodes = a :: rest) :
    Trims fs live i ((moveLater p a t later).2 ++ tail) (moveLater p a t later).1 ∧
      Emptied p rest t (moveLater p a t later).1 := by
  obtain ⟨memA, up⟩ := (h.shaped.mem_children p mem a).mp (all ▸ List.mem_cons_self)
  have ne := h.shaped.ne_parent memA up
  have listed (x : InodeId) (hx : x ∈ later) : x ∈ t.fs.listInodes :=
    (h.pending_mem x (List.mem_append_left _ hx)).1
  have equal := moveLater_eq h.held h.shaped memA up listed
  have trims : Trims fs live i (a :: (later ++ tail)) (moveLater p a t later).1 :=
    h.moveLater h0 memA up below fun x hx => List.mem_append_left _ hx
  refine ⟨by rw [equal] at trims ⊢; exact trims, ?_⟩
  rw [equal]
  refine ⟨⟨fun x hx => hx, fun x q => Filesystem.cutInode_fewer ne x q, fun x hx apart =>
    ⟨hx, ?_⟩⟩, ?_, mem⟩
  · have child : Below t.fs.parentOf p a := .child up (.refl p)
    show (t.fs.cutInode p a).inode x = _
    rw [Filesystem.cutInode_inode ne, if_neg fun eq : x = a => apart (eq ▸ child),
      if_neg fun eq : x = p => apart (by rw [eq]; exact .refl p)]
  · show (t.fs.cutInode p a).inode p = _
    rw [Filesystem.cutInode_inode ne, if_neg ne.symm, if_pos rfl, all, List.erase_cons_head]

/-- Freeing the first child of `p` once its own children are gone. -/
theorem freeInode_turn {p : InodeId} (below : Below fs.parentOf i p)
    {tail later rest : List InodeId} {t t' : FsTeardown} {a : InodeId}
    (h : Trims fs live i later t) (mem : p ∈ t.fs.listInodes)
    (all : (t.fs.inode p).subInodes = a :: rest)
    (h' : Trims fs live i tail t') (emptied : Emptied a [] t t') :
    Trims fs live i tail (t'.freeInode a) ∧ Emptied p rest t (t'.freeInode a) := by
  obtain ⟨memA, up⟩ := (h.shaped.mem_children p mem a).mp (all ▸ List.mem_cons_self)
  have apart : ¬Below t.fs.parentOf a p := (h.shaped.rooted a memA).not_below up
  have up' : t'.fs.parentOf a = some p := by
    unfold Filesystem.parentOf
    rw [emptied.own]
    exact up
  have ne := h.shaped.ne_parent memA up
  obtain ⟨mem', same⟩ := emptied.cut.kept p mem apart
  have fresh : a ∉ tail := fun put => by
    rw [(h'.pending_mem a put).2.1] at up'
    contradiction
  have trims := h'.freeInode emptied.live (by rw [emptied.own]) (below.child (h.fewer a p up))
    h'.pending_nodup fun x => ⟨fun hx => ⟨hx, fun eq => fresh (eq ▸ hx)⟩, fun hx => hx.1⟩
  have equal := freeInode_eq h'.held h'.shaped emptied.live
  have list (x : InodeId) : x ∈ (t'.freeInode a).fs.listInodes ↔ x ≠ a ∧ x ∈ t'.fs.listInodes := by
    rw [equal]
    exact h'.shaped.nodup.mem_erase_iff
  refine ⟨trims, ⟨fun x hx => emptied.cut.shrinks x ((list x).mp hx).2, fun x q hx => ?_,
    fun x hx out => ?_⟩, ?_, (list p).mpr ⟨ne.symm, mem'⟩⟩
  · rw [equal] at hx
    exact emptied.cut.fewer x q (by rwa [Filesystem.dropInode_parentOf] at hx)
  · have child : Below t.fs.parentOf p a := .child up (.refl p)
    obtain ⟨hx', same'⟩ := emptied.cut.kept x hx fun b => out (child.trans b)
    refine ⟨(list x).mpr ⟨fun eq => out (eq ▸ child), hx'⟩, ?_⟩
    rw [equal]
    show (t'.fs.dropInode a).inode x = _
    have other : ¬some p = some x := fun eq => out (by
      rw [Option.some.inj eq]
      exact .refl x)
    rw [Filesystem.dropInode_inode, up', if_neg other, same']
  · rw [equal]
    show (t'.fs.dropInode a).inode p = _
    rw [Filesystem.dropInode_inode, up', if_pos rfl, same, all, List.erase_cons_head]

/-- `free_inode_children` on the children of an inode, at any level. -/
theorem freeInodeChildren_spec (h0 : fs.Shaped) (levels : Nat) {p : InodeId} {t : FsTeardown}
    {later tail : List InodeId} (h : Trims fs live i (later ++ tail) t)
    (mem : p ∈ t.fs.listInodes) (below : Below fs.parentOf i p) :
    Trims fs live i ((freeInodeChildren levels p (t, later)).2 ++ tail)
        (freeInodeChildren levels p (t, later)).1 ∧
      Emptied p [] t (freeInodeChildren levels p (t, later)).1 := by
  induction levels generalizing p t later with
  | zero =>
    refine foldl_children (fun t later a rest h mem all => ?_) h mem rfl
    exact moveLater_turn h0 below h mem all
  | succ levels ih =>
    refine foldl_children (fun t later a rest h mem all => ?_) h mem rfl
    obtain ⟨memA, up⟩ := (h.shaped.mem_children p mem a).mp (all ▸ List.mem_cons_self)
    obtain ⟨trims, emptied⟩ := ih h memA (below.child (h.fewer a p up))
    exact freeInode_turn below h mem all trims emptied

/-- The loop of `free_inode_children` over the orphans that are left. -/
theorem freeDetached_loop (h0 : fs.Shaped) {inodes : List InodeId} {t : FsTeardown}
    {later : List InodeId} (h : Trims fs live i (later ++ inodes) t) :
    let s := inodes.foldl
      (fun s a => let s := freeInodeChildren 5 a s; (s.1.freeInode a, s.2)) (t, later)
    Trims fs live i s.2 s.1 ∧ (∀ x ∈ s.1.fs.listInodes, x ∈ t.fs.listInodes) ∧
      ∀ x ∈ inodes, x ∉ s.1.fs.listInodes := by
  induction inodes generalizing t later with
  | nil =>
    rw [List.append_nil] at h
    exact ⟨h, fun _ hx => hx, fun _ hx => absurd hx List.not_mem_nil⟩
  | cons a rest ih =>
    obtain ⟨mem, up, below, ne⟩ := h.pending_mem a (List.mem_append_right _ List.mem_cons_self)
    obtain ⟨trims, emptied⟩ := freeInodeChildren_spec h0 5 h mem below
    dsimp only [List.foldl_cons]
    generalize freeInodeChildren 5 a (t, later) = s at trims emptied ⊢
    have nodup := List.nodup_middle.mp trims.pending_nodup
    have left (x : InodeId) : x ∈ s.2 ++ rest ↔ x ∈ s.2 ++ a :: rest ∧ x ≠ a := by
      have fresh := (List.nodup_cons.mp nodup).1
      by_cases eq : x = a
      · subst eq
        simpa using fresh
      · simp [eq]
    have freed := trims.freeInode emptied.live (by rw [emptied.own]) below
      (List.nodup_cons.mp nodup).2 left
    have equal := freeInode_eq trims.held trims.shaped emptied.live
    have list (x : InodeId) :
        x ∈ (s.1.freeInode a).fs.listInodes ↔ x ≠ a ∧ x ∈ s.1.fs.listInodes := by
      rw [equal]
      exact trims.shaped.nodup.mem_erase_iff
    obtain ⟨trims', shrinks, gone⟩ := ih freed
    refine ⟨trims', fun x hx => ?_, fun x hx there => ?_⟩
    · exact emptied.cut.shrinks x ((list x).mp (shrinks x hx)).2
    · rcases List.mem_cons.mp hx with rfl | hx
      · exact ((list x).mp (shrinks x there)).1 rfl
      · exact gone x hx there

/-- `free_inode_children` on a list of orphans. -/
theorem freeDetached_spec (h0 : fs.Shaped) {inodes : List InodeId} {t : FsTeardown}
    (h : Trims fs live i inodes t) :
    Trims fs live i (t.freeDetached inodes).2 (t.freeDetached inodes).1 ∧
      (∀ x ∈ (t.freeDetached inodes).1.fs.listInodes, x ∈ t.fs.listInodes) ∧
      ∀ x ∈ inodes, x ∉ (t.freeDetached inodes).1.fs.listInodes :=
  freeDetached_loop h0 h

theorem fewer_of_gone {t t' : FsTeardown} {a : InodeId} (shaped : t'.fs.Shaped)
    (shrinks : ∀ x ∈ t'.fs.listInodes, x ∈ t.fs.listInodes) (there : a ∈ t.fs.listInodes)
    (gone : a ∉ t'.fs.listInodes) : t'.fs.listInodes.length < t.fs.listInodes.length := by
  have sub : t'.fs.listInodes ⊆ t.fs.listInodes.erase a := fun x hx =>
    (List.mem_erase_of_ne fun eq : x = a => gone (eq ▸ hx)).mpr (shrinks x hx)
  have := (List.Nodup.subperm shaped.nodup sub).length_le
  rw [List.length_erase_of_mem there] at this
  have := List.length_pos_of_mem there
  omega

/-- With a turn for every inode, `freeLater` ends with nothing put off. -/
theorem freeLater_spec (h0 : fs.Shaped) {turns : Nat} {t : FsTeardown} {pending : List InodeId}
    (h : Trims fs live i pending t) (enough : t.fs.listInodes.length ≤ turns) :
    Trims fs live i [] (freeLater turns (t, pending)) ∧
      ∀ x ∈ (freeLater turns (t, pending)).fs.listInodes, x ∈ t.fs.listInodes := by
  induction turns generalizing t pending with
  | zero =>
    have none : pending = [] := List.eq_nil_iff_forall_not_mem.mpr fun x hx => by
      have := (h.pending_mem x hx).1
      rw [List.eq_nil_of_length_eq_zero (Nat.le_zero.mp enough)] at this
      exact List.not_mem_nil this
    subst none
    exact ⟨h, fun _ hx => hx⟩
  | succ turns ih =>
    unfold freeLater
    by_cases none : pending = []
    · subst none
      exact ⟨h, fun _ hx => hx⟩
    rw [if_neg none]
    obtain ⟨first, more⟩ := List.exists_cons_of_ne_nil none
    obtain ⟨trims, shrinks, gone⟩ := freeDetached_spec h0 h
    generalize t.freeDetached pending = s at trims shrinks gone
    have put : first ∈ pending := by
      obtain ⟨rest, rfl⟩ := more
      exact List.mem_cons_self
    have shorter := fewer_of_gone trims.shaped shrinks (h.pending_mem first put).1 (gone first put)
    by_cases done : s.2 = []
    · simp only [if_pos done]
      rw [done] at trims
      exact ⟨trims, shrinks⟩
    · simp only [if_neg done]
      obtain ⟨trims', shrinks', -⟩ := freeDetached_spec h0 trims
      have no_more := (List.Nodup.subperm trims'.shaped.nodup shrinks').length_le
      obtain ⟨done, shrinks''⟩ := ih trims' (by omega)
      exact ⟨done, fun x hx => shrinks x (shrinks' x (shrinks'' x hx))⟩

end Loops

/-- `free_inode_with_children`: the inodes below `i` are freed, and nothing else changes but the
list of children that `i` was in. -/
theorem freeInodeWithChildren_spec {t : FsTeardown} {i : InodeId} (shaped : t.fs.Shaped)
    (held : t.Held) (mem : i ∈ t.fs.listInodes) :
    Trims t.fs t.ledger.live i [] (t.freeInodeWithChildren i) ∧
      ∀ x, x ∈ (t.freeInodeWithChildren i).fs.listInodes ↔
        x ∈ t.fs.listInodes ∧ ¬Below t.fs.parentOf i x := by
  have start : Trims t.fs t.ledger.live i ([] ++ []) t := .start shaped held i mem
  obtain ⟨trims, emptied⟩ := freeInodeChildren_spec shaped 6 start mem (.refl i)
  rw [List.append_nil] at trims
  have equal := freeInode_eq trims.held trims.shaped emptied.live
  have freed := trims.freeInode emptied.live (by rw [emptied.own]) (.refl i)
    trims.pending_nodup fun x => ⟨fun hx => ⟨hx, (trims.pending_mem x hx).2.2.2⟩, fun hx => hx.1⟩
  have no_more : ((freeInodeChildren 6 i (t, [])).1.freeInode i).fs.listInodes.length ≤
      t.fs.listInodes.length :=
    (List.Nodup.subperm freed.shaped.nodup freed.shrinks).length_le
  obtain ⟨done, shrinks⟩ := freeLater_spec shaped freed no_more
  refine ⟨done, fun x => ⟨fun hx => ⟨done.shrinks x hx, fun below => ?_⟩, fun ⟨hx, apart⟩ =>
    (done.outside x hx apart).1⟩⟩
  revert hx
  refine Below.rec_up (motive := fun x =>
    x ∉ (t.freeInodeWithChildren i).fs.listInodes) (fun hx => ?_) (fun x p step _ gone hx => ?_)
    below
  · have := shrinks i hx
    rw [equal] at this
    exact trims.shaped.nodup.not_mem_erase this
  · rcases Option.eq_none_or_eq_some
      ((t.freeInodeWithChildren i).fs.parentOf x) with none | ⟨q, up⟩
    · rcases done.orphans x hx none with top | put
      · rw [top] at step
        contradiction
      · exact List.not_mem_nil put
    · have := done.fewer x q up
      rw [step] at this
      exact gone (Option.some.inj this ▸ done.shaped.parent_mem x q hx up)

end FsTeardown

end CoLinux
