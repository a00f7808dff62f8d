import CoLinux.Common.Types
import CoLinux.Lib.Ledger

/-!
# The inode table of a file system (`kernel/filesystem.c`)

An inode is known by the address of its `co_inode_t`. The three lists an inode is linked into
are lists of addresses: the flat list, its hash bucket and the children of its parent, whose
head is embedded in the parent. `inode` is the memory at those addresses, also of inodes that
were freed.
-/

namespace CoLinux

open Lib

abbrev InodeId := Nat

/-- A C string: the bytes before its NUL. -/
abbrev FileName := List UInt8

abbrev coFsHashTableSize : Nat := 0x1000

/-- `co_filesystem_name_t`. -/
structure FilesystemName where
  type : UInt8
  name : FileName

/-- `co_filesystem_dir_names_t`. -/
structure FilesystemDirNames where
  list : List FilesystemName
  refcount : Int

/-- `co_inode_t`. -/
structure Inode where
  parent : Option InodeId
  subInodes : List InodeId
  name : Option FileName
  names : Option FilesystemDirNames
  number : Int

/-- Ways in which a request leaves the C language: the host kernel crashes, or worse. -/
inductive FsFault where
  | nullPointer
  | outsideTable
  | freedInode
  deriving DecidableEq

/-- `co_filesystem_t`; `heap` is the next address that no inode ever had. -/
structure Filesystem where
  listInodes : List InodeId
  inode : InodeId → Inode
  inodeHashes : Nat → List InodeId
  root : Option InodeId
  inodesCount : Int
  nextInodeNum : Int
  basePath : FileName
  heap : InodeId

namespace Filesystem

/-- A field of inode `a` is assigned. -/
def modifyInode (fs : Filesystem) (a : InodeId) (f : Inode → Inode) : Filesystem :=
  { fs with inode := fun b => if b = a then f (fs.inode a) else fs.inode b }

/-- `ino % CO_FS_HASH_TABLE_SIZE` as an index of `inode_hashes`: the C remainder of a negative
number is not positive. -/
def hashIndex (ino : Int) : Option Nat :=
  if ino.tmod coFsHashTableSize < 0 then none else some (ino.tmod coFsHashTableSize).toNat

/-- `ino_num_to_inode`. -/
def inoNumToInode (fs : Filesystem) (ino : Int) : Except FsFault (Option InodeId) :=
  if ino = 1 then
    match fs.root with
    | none => .ok none
    | some r => if r ∈ fs.listInodes then .ok (some r) else .error .freedInode
  else
    match hashIndex ino with
    | none => .error .outsideTable
    | some i => .ok ((fs.inodeHashes i).find? fun a => (fs.inode a).number = ino)

/-- `find_inode`, from the child at hand on. -/
def findIn (fs : Filesystem) (name : FileName) : List InodeId → Except FsFault (Option InodeId)
  | [] => .ok none
  | a :: siblings =>
    match (fs.inode a).name with
    | none => .error .nullPointer
    | some s => if s = name then .ok (some a) else findIn fs name siblings

/-- `find_inode`. -/
def findInode (fs : Filesystem) (parent : Option InodeId) (name : FileName) :
    Except FsFault (Option InodeId) :=
  match parent with
  | none => .error .nullPointer
  | some p => fs.findIn name (fs.inode p).subInodes

/-- `int` addition. -/
def intSucc (i : Int) : Int := (i + 1).bmod wordSize

/-- The loop of `alloc_inode` that picks a number: the number and the next one to try. Of
`listInodes.length + 1` numbers in a row one is not taken. -/
def allocNumber (fs : Filesystem) : Nat → Int → Except FsFault (Int × Int)
  | 0, next => .ok (next, intSucc next)
  | turns + 1, next =>
    match fs.inoNumToInode next with
    | .error fault => .error fault
    | .ok none => .ok (next, intSucc next)
    | .ok (some _) => allocNumber fs turns (intSucc next)

/-- The assignments of `alloc_inode` once it has its memory and its number. -/
def linkInode (fs : Filesystem) (parent : Option InodeId) (name : Option FileName)
    (number next : Int) : Filesystem :=
  let a := fs.heap
  let bucket := (number.tmod coFsHashTableSize).toNat
  let child := fs.modifyInode a fun _ => ⟨parent, [], name, none, number⟩
  let linked := match parent with
    | none => child
    | some p => child.modifyInode p fun i => { i with subInodes := i.subInodes ++ [a] }
  { fs with
    inode := linked.inode
    listInodes := fs.listInodes ++ [a]
    inodeHashes := fun i => if i = bucket then fs.inodeHashes i ++ [a] else fs.inodeHashes i
    inodesCount := fs.inodesCount + 1
    nextInodeNum := next
    heap := a + 1 }

/-- `reparent_inode`, and the new name that `inode_rename` gives the inode. -/
def renameInode (fs : Filesystem) (a : InodeId) (newParent : InodeId)
    (name : Option FileName) : Filesystem :=
  let fs := match (fs.inode a).parent with
    | none => fs
    | some p => fs.modifyInode p fun i => { i with subInodes := i.subInodes.erase a }
  let fs := fs.modifyInode newParent fun i => { i with subInodes := a :: i.subInodes }
  fs.modifyInode a fun i => { i with parent := some newParent, name := name }

end Filesystem

/-! ## Freeing inodes -/

/-- What the tree holds of the host's memory. -/
inductive FsBlock where
  | inode (a : InodeId)
  | name (a : InodeId)
  /-- The `co_filesystem_dir_names_t` of an open directory. -/
  | names (a : InodeId)
  /-- The entries of its list. -/
  | entries (a : InodeId)
  deriving DecidableEq

/-- The blocks of one inode. -/
def Inode.blocks (i : Inode) (a : InodeId) : List FsBlock :=
  .inode a :: (if i.name.isSome then [.name a] else []) ++
    if i.names.isSome then [.names a, .entries a] else []

/-- A file system whose blocks are on a ledger while they are freed. -/
structure FsTeardown where
  fs : Filesystem
  ledger : Ledger FsBlock

/-- The neighbours of `a` in a list; the list head is a field of `owner`, or of no inode. -/
def listNeighbours (owner : Option InodeId) (a : InodeId) (l : List InodeId) : List InodeId :=
  let i := l.idxOf a
  (if i = 0 then owner else l[i - 1]?).toList ++ (l[i + 1]?.or owner).toList

namespace FsTeardown

/-- A field of inode `a` is written. -/
def touchInode (l : Ledger FsBlock) (a : InodeId) : Ledger FsBlock :=
  if .inode a ∈ l.live then l else l.fault (.inode a)

/-- Fields of these inodes are written. -/
def touch (inodes : List InodeId) (t : FsTeardown) : FsTeardown :=
  { t with ledger := inodes.foldl touchInode t.ledger }

def release (blocks : List FsBlock) (t : FsTeardown) : FsTeardown :=
  { t with ledger := t.ledger.releaseAll blocks }

/-- `co_list_del(&inode->flat_node)`. -/
def delFlatNode (a : InodeId) (t : FsTeardown) : FsTeardown :=
  let t := t.touch (a :: listNeighbours none a t.fs.listInodes)
  { t with fs := { t.fs with listInodes := t.fs.listInodes.erase a } }

/-- `co_list_del(&inode->hash_node)`. -/
def delHashNode (a : InodeId) (t : FsTeardown) : FsTeardown :=
  let bucket := ((t.fs.inode a).number.tmod coFsHashTableSize).toNat
  let t := t.touch (a :: listNeighbours none a (t.fs.inodeHashes bucket))
  { t with fs := { t.fs with inodeHashes := fun i =>
      if i = bucket then (t.fs.inodeHashes i).erase a else t.fs.inodeHashes i } }

/-- `co_list_del(&inode->node)`, out of the children of `p`. -/
def delNode (p a : InodeId) (t : FsTeardown) : FsTeardown :=
  let t := t.touch (a :: listNeighbours (some p) a (t.fs.inode p).subInodes)
  { t with fs := t.fs.modifyInode p fun i => { i with subInodes := i.subInodes.erase a } }

/-- The part of `free_inode` that takes the inode out of its lists. -/
def unlinkInode (a : InodeId) (t : FsTeardown) : FsTeardown :=
  let t := (t.delFlatNode a).delHashNode a
  match (t.fs.inode a).parent with
  | none => t
  | some p => t.delNode p a

/-- `free_inode`. `co_filesystem_getdir_free` frees the entries of the listing. -/
def freeInode (a : InodeId) (t : FsTeardown) : FsTeardown :=
  let t := t.unlinkInode a
  let t := if (t.fs.inode a).names.isSome then t.release [.entries a] else t
  let t := if (t.fs.inode a).name.isSome then t.release [.name a] else t
  let t := t.release [.inode a]
  { t with fs := { t.fs with inodesCount := t.fs.inodesCount - 1 } }

/-- One turn of the first loop of `free_inode_children`: the child `a` of `p` moves to the list
`later`, whose head is on the stack. -/
def moveLater (p a : InodeId) (t : FsTeardown) (later : List InodeId) :
    FsTeardown × List InodeId :=
  let t := (t.delNode p a).touch (a :: later.head?.toList)
  ({ t with fs := t.fs.modifyInode a fun i => { i with parent := none } }, a :: later)

/-- The loops of `free_inode_children` over the children of `p`, with `levels` levels to go
before the children are put off. -/
def freeInodeChildren : Nat → InodeId → FsTeardown × List InodeId → FsTeardown × List InodeId
  | 0, p, (t, later) =>
    (t.fs.inode p).subInodes.foldl (fun s a => moveLater p a s.1 s.2) (t, later)
  | levels + 1, p, (t, later) =>
    (t.fs.inode p).subInodes.foldl
      (fun s a => let s := freeInodeChildren levels a s; (s.1.freeInode a, s.2)) (t, later)

/-- `free_inode_children` on a list whose head is on the stack. -/
def freeDetached (inodes : List InodeId) (t : FsTeardown) : FsTeardown × List InodeId :=
  inodes.foldl (fun s a => let s := freeInodeChildren 5 a s; (s.1.freeInode a, s.2)) (t, [])

/-- The loop of `free_inode_with_children`. -/
def freeLater : Nat → FsTeardown × List InodeId → FsTeardown
  | 0, (t, _) => t
  | turns + 1, (t, toDelete) =>
    if toDelete = [] then t
    else
      let s := t.freeDetached toDelete
      if s.2 = [] then s.1
      else freeLater turns (s.1.freeDetached s.2)

/-- `free_inode_with_children`. Every turn of its loop frees an inode. -/
def freeInodeWithChildren (a : InodeId) (t : FsTeardown) : FsTeardown :=
  let s := freeInodeChildren 6 a (t, [])
  freeLater t.fs.listInodes.length (s.1.freeInode a, s.2)

/-- The loop of `co_monitor_file_system_free`, with as many turns as the list is long. -/
def freeList : Nat → FsTeardown → FsTeardown
  | 0, t => t
  | turns + 1, t =>
    match t.fs.listInodes with
    | [] => t
    | a :: _ => freeList turns (t.freeInode a)

/-- `co_monitor_file_system_free`, up to the `co_filesystem_t` itself. -/
def coMonitorFileSystemFree (t : FsTeardown) : FsTeardown := t.freeList t.fs.listInodes.length

end FsTeardown

/-- The tree with its blocks, before something is freed. -/
def Filesystem.teardown (fs : Filesystem) : FsTeardown :=
  ⟨fs, ⟨fs.listInodes.flatMap fun a => (fs.inode a).blocks a, []⟩⟩

end CoLinux
