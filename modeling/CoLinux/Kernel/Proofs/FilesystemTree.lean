import CoLinux.Kernel.Filesystem
import CoLinux.Lib.Ancestry

/-!
# The shape of the inode table

`Shaped` is what every list operation keeps, whatever the requests are: the three kinds of list
agree with each other and with the parent pointers, and the parent pointers form a forest. The
lemmas of this module are the primitive updates: linking a new inode, moving one, cutting one
off its parent and dropping a leaf.
-/

namespace CoLinux

open Lib

namespace Filesystem

def parentOf (fs : Filesystem) (a : InodeId) : Option InodeId := (fs.inode a).parent

/-- The bucket of an inode's number. -/
def bucketOf (fs : Filesystem) (a : InodeId) : Nat :=
  ((fs.inode a).number.tmod coFsHashTableSize).toNat

structure Shaped (fs : Filesystem) : Prop where
  nodup : fs.listInodes.Nodup
  mem_hash : ∀ i a, a ∈ fs.inodeHashes i ↔ a ∈ fs.listInodes ∧ fs.bucketOf a = i
  nodup_hash : ∀ i, (fs.inodeHashes i).Nodup
  mem_children : ∀ p ∈ fs.listInodes, ∀ a,
    a ∈ (fs.inode p).subInodes ↔ a ∈ fs.listInodes ∧ fs.parentOf a = some p
  nodup_children : ∀ p ∈ fs.listInodes, (fs.inode p).subInodes.Nodup
  parent_mem : ∀ a p, a ∈ fs.listInodes → fs.parentOf a = some p → p ∈ fs.listInodes
  rooted : ∀ a ∈ fs.listInodes, Rooted fs.parentOf a
  count : fs.inodesCount = fs.listInodes.length
  heap : ∀ a ∈ fs.listInodes, a < fs.heap

/-- The shape does not depend on names, listings and the fields of the file system itself. -/
theorem Shaped.congr {fs fs' : Filesystem} (h : fs.Shaped)
    (list : fs'.listInodes = fs.listInodes) (hashes : fs'.inodeHashes = fs.inodeHashes)
    (count : fs'.inodesCount = fs.inodesCount) (heap : fs'.heap = fs.heap)
    (parent : ∀ x, (fs'.inode x).parent = (fs.inode x).parent)
    (children : ∀ x, (fs'.inode x).subInodes = (fs.inode x).subInodes)
    (number : ∀ x, (fs'.inode x).number = (fs.inode x).number) : fs'.Shaped := by
  have parentOf : fs'.parentOf = fs.parentOf := funext parent
  have bucketOf (x : InodeId) : fs'.bucketOf x = fs.bucketOf x := by
    unfold Filesystem.bucketOf
    rw [number]
  refine ⟨list ▸ h.nodup, fun i a => ?_, fun i => hashes ▸ h.nodup_hash i, fun p hp a => ?_,
    fun p hp => ?_, fun a p ha up => ?_, fun a ha => ?_, ?_, fun a ha => ?_⟩
  · rw [hashes, list, bucketOf]
    exact h.mem_hash i a
  · rw [children, list, parentOf]
    exact h.mem_children p (list ▸ hp) a
  · rw [children]
    exact h.nodup_children p (list ▸ hp)
  · rw [list] at ha ⊢
    exact h.parent_mem a p ha (parentOf ▸ up)
  · rw [parentOf]
    exact h.rooted a (list ▸ ha)
  · rw [count, list, h.count]
  · rw [heap]
    exact h.heap a (list ▸ ha)

@[simp] theorem modifyInode_self (fs : Filesystem) (a : InodeId) (f : Inode → Inode) :
    (fs.modifyInode a f).inode a = f (fs.inode a) := if_pos rfl

theorem modifyInode_ne (fs : Filesystem) {a b : InodeId} (f : Inode → Inode) (h : b ≠ a) :
    (fs.modifyInode a f).inode b = fs.inode b := if_neg h

/-- The table without a leaf. -/
def dropInode (fs : Filesystem) (a : InodeId) : Filesystem :=
  { fs with
    listInodes := fs.listInodes.erase a
    inode := fun x => if fs.parentOf a = some x
      then { fs.inode x with subInodes := (fs.inode x).subInodes.erase a } else fs.inode x
    inodeHashes := fun i => if i = fs.bucketOf a then (fs.inodeHashes i).erase a
      else fs.inodeHashes i
    inodesCount := fs.inodesCount - 1 }

/-- The table with `a` cut off its parent `p`. -/
def cutInode (fs : Filesystem) (p a : InodeId) : Filesystem :=
  (fs.modifyInode p fun i => { i with subInodes := i.subInodes.erase a }).modifyInode a
    fun i => { i with parent := none }

section Drop

variable {fs : Filesystem} {a : InodeId}

theorem dropInode_inode (fs : Filesystem) (a x : InodeId) :
    (fs.dropInode a).inode x = if fs.parentOf a = some x
      then { fs.inode x with subInodes := (fs.inode x).subInodes.erase a } else fs.inode x := rfl

theorem dropInode_parentOf (fs : Filesystem) (a : InodeId) :
    (fs.dropInode a).parentOf = fs.parentOf := by
  funext x
  unfold parentOf
  rw [dropInode_inode]
  split <;> rfl

theorem dropInode_bucketOf (fs : Filesystem) (a : InodeId) :
    (fs.dropInode a).bucketOf = fs.bucketOf := by
  funext x
  unfold bucketOf
  rw [dropInode_inode]
  split <;> rfl

theorem Shaped.dropInode (h : fs.Shaped) (live : a ∈ fs.listInodes)
    (leaf : (fs.inode a).subInodes = []) : (fs.dropInode a).Shaped := by
  have list : (fs.dropInode a).listInodes = fs.listInodes.erase a := rfl
  have mem (x : InodeId) : x ∈ (fs.dropInode a).listInodes ↔ x ≠ a ∧ x ∈ fs.listInodes :=
    h.nodup.mem_erase_iff
  have childless (x : InodeId) (hx : x ∈ fs.listInodes) : fs.parentOf x ≠ some a := fun up => by
    have := (h.mem_children a live x).mpr ⟨hx, up⟩
    rw [leaf] at this
    exact List.not_mem_nil this
  refine ⟨h.nodup.erase a, fun i x => ?_, fun i => ?_, fun p hp x => ?_, fun p hp => ?_,
    fun x p hx up => ?_, fun x hx => ?_, ?_, fun x hx => h.heap x ((mem x).mp hx).2⟩
  · rw [mem, dropInode_bucketOf]
    show x ∈ (if i = fs.bucketOf a then (fs.inodeHashes i).erase a else fs.inodeHashes i) ↔ _
    split
    · rw [(h.nodup_hash i).mem_erase_iff, h.mem_hash, and_assoc]
    · rename_i other
      rw [h.mem_hash, and_assoc]
      exact ⟨fun hx => ⟨fun eq => other (eq ▸ hx.2.symm), hx⟩, fun hx => hx.2⟩
  · show (if i = fs.bucketOf a then (fs.inodeHashes i).erase a else fs.inodeHashes i).Nodup
    split
    · exact (h.nodup_hash i).erase a
    · exact h.nodup_hash i
  · obtain ⟨-, hp⟩ := (mem p).mp hp
    rw [mem, dropInode_parentOf, dropInode_inode, and_assoc, ← h.mem_children p hp x]
    split
    · exact (h.nodup_children p hp).mem_erase_iff
    · rename_i other
      refine ⟨fun hx => ⟨fun eq => other ?_, hx⟩, fun hx => hx.2⟩
      exact eq ▸ ((h.mem_children p hp x).mp hx).2
  · rw [dropInode_inode]
    split
    · exact (h.nodup_children p ((mem p).mp hp).2).erase a
    · exact h.nodup_children p ((mem p).mp hp).2
  · rw [dropInode_parentOf] at up
    obtain ⟨-, hx⟩ := (mem x).mp hx
    exact (mem p).mpr ⟨fun eq => childless x hx (eq ▸ up), h.parent_mem x p hx up⟩
  · rw [dropInode_parentOf]
    exact h.rooted x ((mem x).mp hx).2
  · show fs.inodesCount - 1 = ((fs.listInodes.erase a).length : Int)
    rw [List.length_erase_of_mem live, h.count]
    have := List.length_pos_of_mem live
    omega

end Drop

section Cut

variable {fs : Filesystem} {p a : InodeId}

theorem cutInode_inode (ne : a ≠ p) (x : InodeId) :
    (fs.cutInode p a).inode x =
      if x = a then { fs.inode a with parent := none }
      else if x = p then { fs.inode p with subInodes := (fs.inode p).subInodes.erase a }
      else fs.inode x := by
  unfold cutInode
  by_cases this : x = a
  · subst this
    rw [modifyInode_self, modifyInode_ne fs _ ne, if_pos rfl]
  · rw [modifyInode_ne _ _ this, if_neg this]
    rfl

theorem cutInode_parentOf (ne : a ≠ p) (x : InodeId) :
    (fs.cutInode p a).parentOf x = if x = a then none else fs.parentOf x := by
  unfold parentOf
  rw [cutInode_inode ne]
  split
  · rfl
  · split
    · rename_i h
      rw [h]
    · rfl

theorem cutInode_bucketOf (ne : a ≠ p) : (fs.cutInode p a).bucketOf = fs.bucketOf := by
  funext x
  unfold bucketOf
  rw [cutInode_inode ne]
  split
  · rename_i h
    rw [h]
  · split
    · rename_i h
      rw [h]
    · rfl

theorem cutInode_fewer (ne : a ≠ p) (x q : InodeId)
    (h : (fs.cutInode p a).parentOf x = some q) : fs.parentOf x = some q := by
  rw [cutInode_parentOf ne] at h
  split at h
  · contradiction
  · exact h

theorem Shaped.ne_parent (h : fs.Shaped) (live : a ∈ fs.listInodes)
    (up : fs.parentOf a = some p) : a ≠ p := fun eq =>
  (h.rooted a live).not_below up (eq ▸ Below.refl a)

theorem Shaped.cutInode (h : fs.Shaped) (live : a ∈ fs.listInodes)
    (up : fs.parentOf a = some p) : (fs.cutInode p a).Shaped := by
  have ne := h.ne_parent live up
  have hp := h.parent_mem a p live up
  have list : (fs.cutInode p a).listInodes = fs.listInodes := rfl
  refine ⟨h.nodup, fun i x => ?_, h.nodup_hash, fun q hq x => ?_, fun q hq => ?_,
    fun x q hx hq => h.parent_mem x q hx (cutInode_fewer ne x q hq), fun x hx => ?_, h.count,
    h.heap⟩
  · rw [cutInode_bucketOf ne]
    exact h.mem_hash i x
  · rw [cutInode_parentOf ne, cutInode_inode ne]
    have children := h.mem_children q hq x
    by_cases this : q = p
    · subst this
      rw [if_neg (Ne.symm ne), if_pos rfl, (h.nodup_children q hp).mem_erase_iff, children]
      by_cases same : x = a <;> simp [same, list]
    · have unmoved : x = a → fs.parentOf x ≠ some q := fun same up' => by
        rw [same, up] at up'
        exact this (Option.some.inj up').symm
      have kept : (if q = a then { fs.inode a with parent := none }
          else if q = p then { fs.inode p with subInodes := (fs.inode p).subInodes.erase a }
          else fs.inode q).subInodes = (fs.inode q).subInodes := by
        by_cases own : q = a
        · rw [if_pos own, own]
        · rw [if_neg own, if_neg this]
      rw [kept, children]
      by_cases same : x = a
      · simp [same, same ▸ unmoved same]
      · simp [same, list]
  · rw [cutInode_inode ne]
    split
    · exact h.nodup_children a live
    split
    · exact (h.nodup_children p hp).erase a
    · exact h.nodup_children q hq
  · exact (h.rooted x hx).mono (cutInode_fewer ne)

end Cut

section Link

variable {fs : Filesystem} {parent : Option InodeId} {name : Option FileName} {number next : Int}

theorem linkInode_inode (below : ∀ p, parent = some p → p < fs.heap) (x : InodeId) :
    (fs.linkInode parent name number next).inode x =
      if x = fs.heap then ⟨parent, [], name, none, number⟩
      else if parent = some x
        then { fs.inode x with subInodes := (fs.inode x).subInodes ++ [fs.heap] }
        else fs.inode x := by
  cases parent with
  | none =>
    by_cases h : x = fs.heap <;> simp [linkInode, modifyInode, h]
  | some p =>
    have ne := Nat.ne_of_lt (below p rfl)
    by_cases h : x = fs.heap
    · simp [linkInode, modifyInode, h, Ne.symm ne]
    · by_cases h' : x = p
      · subst h'
        simp [linkInode, modifyInode, h]
      · simp [linkInode, modifyInode, h, h', Ne.symm h']

theorem linkInode_parentOf (below : ∀ p, parent = some p → p < fs.heap) (x : InodeId) :
    (fs.linkInode parent name number next).parentOf x =
      if x = fs.heap then parent else fs.parentOf x := by
  unfold parentOf
  rw [linkInode_inode below]
  split
  · rfl
  · split <;> rfl

theorem linkInode_bucketOf (below : ∀ p, parent = some p → p < fs.heap) (x : InodeId) :
    (fs.linkInode parent name number next).bucketOf x =
      if x = fs.heap then (number.tmod coFsHashTableSize).toNat else fs.bucketOf x := by
  unfold bucketOf
  rw [linkInode_inode below]
  split
  · rfl
  · split <;> rfl

theorem Shaped.linkInode (h : fs.Shaped) (live : ∀ p, parent = some p → p ∈ fs.listInodes) :
    (fs.linkInode parent name number next).Shaped := by
  have below (p : InodeId) (hp : parent = some p) : p < fs.heap := h.heap p (live p hp)
  have old {x : InodeId} (hx : x ∈ fs.listInodes) : x ≠ fs.heap := Nat.ne_of_lt (h.heap x hx)
  have fresh : fs.heap ∉ fs.listInodes := fun hx => old hx rfl
  have mem (x : InodeId) : x ∈ (fs.linkInode parent name number next).listInodes ↔
      x ∈ fs.listInodes ∨ x = fs.heap := by
    show x ∈ fs.listInodes ++ [fs.heap] ↔ _
    simp
  have unlisted (i : Nat) : fs.heap ∉ fs.inodeHashes i := fun hx =>
    fresh ((h.mem_hash i _).mp hx).1
  have unborn (p : InodeId) (hp : p ∈ fs.listInodes) : fs.heap ∉ (fs.inode p).subInodes :=
    fun hx => fresh ((h.mem_children p hp _).mp hx).1
  have kept (x : InodeId) (hx : x ∈ fs.listInodes) :
      (fs.linkInode parent name number next).parentOf x = fs.parentOf x := by
    rw [linkInode_parentOf below, if_neg (old hx)]
  refine ⟨?_, fun i x => ?_, fun i => ?_, fun p hp x => ?_, fun p hp => ?_, fun x p hx up => ?_,
    fun x hx => ?_, ?_, fun x hx => ?_⟩
  · show (fs.listInodes ++ [fs.heap]).Nodup
    exact List.nodup_append.mpr ⟨h.nodup, List.nodup_singleton _, by
      intro x hx y hy
      rw [List.mem_singleton.mp hy]
      exact old hx⟩
  · rw [mem, linkInode_bucketOf below]
    show x ∈ (if i = _ then fs.inodeHashes i ++ [fs.heap] else fs.inodeHashes i) ↔ _
    by_cases new : x = fs.heap
    · subst new
      split <;> simp_all [eq_comm]
    · rw [if_neg new]
      split <;> simp [new, h.mem_hash]
  · show (if i = _ then fs.inodeHashes i ++ [fs.heap] else fs.inodeHashes i).Nodup
    split
    · refine List.nodup_append.mpr ⟨h.nodup_hash i, List.nodup_singleton _, ?_⟩
      intro x hx y hy
      rw [List.mem_singleton.mp hy]
      exact fun eq => unlisted i (eq ▸ hx)
    · exact h.nodup_hash i
  · rw [mem, linkInode_parentOf below, linkInode_inode below]
    rcases (mem p).mp hp with hp | rfl
    · rw [if_neg (old hp)]
      by_cases new : x = fs.heap
      · subst new
        by_cases up : parent = some p <;> simp [up, unborn p hp]
      · have children := h.mem_children p hp x
        by_cases up : parent = some p <;> simp [up, new, children]
    · rw [if_pos rfl]
      by_cases new : x = fs.heap
      · subst new
        simp only [List.not_mem_nil, if_true, false_iff, not_and]
        exact fun _ up => Nat.lt_irrefl _ (below _ up)
      · simp only [List.not_mem_nil, new, if_false, false_iff, not_and, or_false]
        exact fun hx up => fresh (h.parent_mem x _ hx up)
  · rw [linkInode_inode below]
    rcases (mem p).mp hp with hp | rfl
    · rw [if_neg (old hp)]
      split
      · refine List.nodup_append.mpr ⟨h.nodup_children p hp, List.nodup_singleton _, ?_⟩
        intro x hx y hy
        rw [List.mem_singleton.mp hy]
        exact fun eq => unborn p hp (eq ▸ hx)
      · exact h.nodup_children p hp
    · rw [if_pos rfl]
      exact List.nodup_nil
  · rw [linkInode_parentOf below] at up
    rcases (mem x).mp hx with hx | rfl
    · rw [if_neg (old hx)] at up
      exact (mem p).mpr (.inl (h.parent_mem x p hx up))
    · rw [if_pos rfl] at up
      exact (mem p).mpr (.inl (live p up))
  · have rooted (x : InodeId) (hx : x ∈ fs.listInodes) :
        Rooted (fs.linkInode parent name number next).parentOf x :=
      (h.rooted x hx).congr_on (S := fun y => y ∈ fs.listInodes) h.parent_mem kept hx
    rcases (mem x).mp hx with hx | rfl
    · exact rooted x hx
    · have up : (fs.linkInode parent name number next).parentOf fs.heap = parent := by
        rw [linkInode_parentOf below, if_pos rfl]
      rcases Option.eq_none_or_eq_some parent with top | ⟨p, child⟩
      · exact .top (up.trans top)
      · exact .child (up.trans child) (rooted p (live p child))
  · show fs.inodesCount + 1 = ((fs.listInodes ++ [fs.heap]).length : Int)
    rw [List.length_append, h.count]
    rfl
  · show x < fs.heap + 1
    rcases (mem x).mp hx with hx | rfl
    · exact Nat.lt_succ_of_lt (h.heap x hx)
    · exact Nat.lt_succ_self _

end Link

section Rename

variable {fs : Filesystem} {a p b : InodeId} {name : Option FileName}

theorem renameInode_inode (up : fs.parentOf a = some p) (ne : a ≠ p) (ne' : a ≠ b) (x : InodeId) :
    (fs.renameInode a b name).inode x =
      if x = a then { fs.inode a with parent := some b, name := name }
      else
        { fs.inode x with subInodes := (if x = b then [a] else []) ++
            if x = p then (fs.inode x).subInodes.erase a else (fs.inode x).subInodes } := by
  have parent : (fs.inode a).parent = some p := up
  unfold renameInode
  rw [parent]
  by_cases this : x = a
  · subst this
    simp [modifyInode, ne, ne']
  · by_cases target : x = b <;> by_cases source : x = p <;>
      simp_all [modifyInode, eq_comm]

theorem renameInode_parentOf (up : fs.parentOf a = some p) (ne : a ≠ p) (ne' : a ≠ b)
    (x : InodeId) :
    (fs.renameInode a b name).parentOf x = if x = a then some b else fs.parentOf x := by
  unfold parentOf
  rw [renameInode_inode up ne ne']
  split <;> rfl

theorem renameInode_bucketOf (up : fs.parentOf a = some p) (ne : a ≠ p) (ne' : a ≠ b) :
    (fs.renameInode a b name).bucketOf = fs.bucketOf := by
  funext x
  unfold bucketOf
  rw [renameInode_inode up ne ne']
  split
  · rename_i h
    rw [h]
  · rfl

theorem renameInode_lists (fs : Filesystem) (a b : InodeId) (name : Option FileName) :
    (fs.renameInode a b name).listInodes = fs.listInodes ∧
      (fs.renameInode a b name).inodeHashes = fs.inodeHashes ∧
      (fs.renameInode a b name).root = fs.root ∧
      (fs.renameInode a b name).inodesCount = fs.inodesCount ∧
      (fs.renameInode a b name).nextInodeNum = fs.nextInodeNum ∧
      (fs.renameInode a b name).basePath = fs.basePath ∧
      (fs.renameInode a b name).heap = fs.heap := by
  unfold renameInode
  cases (fs.inode a).parent <;> exact ⟨rfl, rfl, rfl, rfl, rfl, rfl, rfl⟩

theorem Shaped.renameInode (h : fs.Shaped) (live : a ∈ fs.listInodes)
    (up : fs.parentOf a = some p) (target : b ∈ fs.listInodes)
    (apart : ¬Below fs.parentOf a b) : (fs.renameInode a b name).Shaped := by
  have ne := h.ne_parent live up
  have ne' : a ≠ b := fun eq => apart (eq ▸ Below.refl a)
  have hp := h.parent_mem a p live up
  obtain ⟨list, hashes, -, count, -, -, heap⟩ := renameInode_lists fs a b name
  refine ⟨list ▸ h.nodup, fun i x => ?_, fun i => hashes ▸ h.nodup_hash i, fun q hq x => ?_,
    fun q hq => ?_, fun x q hx hq => ?_, fun x hx => ?_, ?_, fun x hx => ?_⟩
  · rw [list, hashes, renameInode_bucketOf up ne ne']
    exact h.mem_hash i x
  · rw [list] at hq ⊢
    rw [renameInode_parentOf up ne ne', renameInode_inode up ne ne']
    have children := h.mem_children q hq x
    by_cases own : q = a
    · subst own
      rw [if_pos rfl]
      by_cases same : x = q
      · subst same
        simp only [if_true, Option.some.injEq]
        rw [children, up]
        simp [Ne.symm ne, Ne.symm ne']
      · simpa [same] using children
    · rw [if_neg own]
      by_cases same : x = a
      · subst same
        by_cases this : q = b
        · simp [this, live]
        · by_cases old : q = p
          · have other : p ≠ b := fun eq => this (old.trans eq)
            simp [old, (h.nodup_children p hp).mem_erase_iff, other, Ne.symm other]
          · simp [this, old, children, up, Ne.symm old, Ne.symm this]
      · have member : x ∈ (if q = b then [a] else []) ++
            (if q = p then (fs.inode q).subInodes.erase a else (fs.inode q).subInodes) ↔
            x ∈ (fs.inode q).subInodes := by
          split <;> split <;> simp [same, List.mem_erase_of_ne]
        rw [member, children, if_neg same]
  · rw [list] at hq
    rw [renameInode_inode up ne ne']
    split
    · exact h.nodup_children a live
    · have rest : (if q = p then (fs.inode q).subInodes.erase a
          else (fs.inode q).subInodes).Nodup := by
        split
        · exact (h.nodup_children q hq).erase a
        · exact h.nodup_children q hq
      have gone : a ∉ (if q = p then (fs.inode q).subInodes.erase a
          else (fs.inode q).subInodes) := by
        split
        · exact (h.nodup_children q hq).not_mem_erase
        · rename_i other
          intro hx
          have := ((h.mem_children q hq a).mp hx).2
          rw [up] at this
          exact other (Option.some.inj this).symm
      by_cases this : q = b
      · simp only [this, if_true]
        rw [this] at rest gone
        exact List.nodup_cons.mpr ⟨gone, rest⟩
      · simp only [this, if_false, List.nil_append]
        exact rest
  · rw [list] at hx ⊢
    rw [renameInode_parentOf up ne ne'] at hq
    split at hq
    · exact Option.some.inj hq ▸ target
    · exact h.parent_mem x q hx hq
  · rw [list] at hx
    refine Rooted.hang ?_ (fun y hy => ?_) (h.rooted b target) apart (h.rooted x hx)
    · rw [renameInode_parentOf up ne ne', if_pos rfl]
    · rw [renameInode_parentOf up ne ne', if_neg hy]
  · rw [count, list, h.count]
  · rw [heap]
    exact h.heap x (list ▸ hx)

end Rename

end Filesystem

end CoLinux
