import CoLinux.Kernel.DirRead

/-!
# File system requests (`co_monitor_file_system` in `kernel/filesystem.c`)

A request is what the guest leaves in the passage page; its environment says how the
allocations, the host file operation and the copies to the guest that it makes end. Every
request makes at most one operation on the host's files.
-/

namespace CoLinux

open Lib

/-- `struct fuse_attr`. -/
structure FuseAttr where
  size : Nat
  mode : Nat
  nlink : Nat
  uid : Nat
  gid : Nat
  rdev : Nat
  blocks : Nat
  atime : Nat
  mtime : Nat
  ctime : Nat
  deriving DecidableEq

/-- What `fs_mount` stores beside the path. -/
structure MountOptions where
  uid : Nat
  gid : Nat
  dirMode : Nat
  fileMode : Nat
  flags : Nat

/-- The `co_os_file_*` functions, with their arguments. -/
inductive HostFileOp where
  | getAttr (filename : FileName)
  | setAttr (filename : FileName) (valid : Nat) (attr : FuseAttr)
  | readWrite (filename : FileName) (offset size buffer : Nat) (read : Bool)
  | unlink (filename : FileName)
  | rmdir (filename : FileName)
  | mkdir (dirname : FileName)
  | rename (filename destFilename : FileName)
  | mknod (filename : FileName) (mode : Nat)
  | getdir (dirname : FileName)
  | fsStat (basePath : FileName)

/-- What a host file operation returns, as far as its function has the result. -/
structure HostAnswer where
  rc : CoRc
  attr : FuseAttr
  names : List FilesystemName

/-- How things outside the file system code turn out during one request. -/
structure FsEnv where
  /-- Whether an allocation of the request is granted, counted from its start. -/
  alloc : Nat → Bool
  file : HostFileOp → HostAnswer
  /-- The result of `co_monitor_host_to_linuxvm`, counted from the start of the request. -/
  copy : Nat → CoRc
  /-- `co_os_get_time`. -/
  time : Nat
  /-- What the stack held where `inode_dir_read` has its dirent. -/
  stack : ByteMem

/-- An environment in which everything succeeds. -/
def grantingEnv : FsEnv where
  alloc _ := true
  file _ := ⟨.ok, ⟨0, 0, 0, 0, 0, 0, 0, 0, 0, 0⟩, []⟩
  copy _ := .ok
  time := 0
  stack _ := 0

/-- A mounted file system, and what the request at hand has done so far. -/
structure FsWorld where
  fs : Filesystem
  options : MountOptions
  /-- `desc->pathname`. -/
  pathname : FileName
  allocs : Nat
  ops : List HostFileOp

/-- The fields of the passage page that a request writes. -/
structure FsReply where
  result : Int
  ino : Option Int
  attr : Option FuseAttr
  fillSize : Option Nat
  /-- What is copied to the guest's memory, and where. -/
  copies : List (Nat × List UInt8)

/-- A request of the guest: the opcode and the fields its function reads. -/
inductive FsRequest where
  | mount (pathname : FileName) (options : MountOptions)
  | statfs
  | setattr (ino : Int) (valid : Nat) (attr : FuseAttr)
  | rename (ino newDir : Int) (oldname newname : FileName)
  | forget (ino : Int)
  | mknod (ino : Int) (mode rdev : Nat) (name : FileName)
  | mkdir (ino : Int) (mode : Nat) (name : FileName)
  | unlink (ino : Int) (name : FileName)
  | rmdir (ino : Int) (name : FileName)
  | write (ino : Int) (offset size buffer : Nat)
  | read (ino : Int) (offset size buffer : Nat)
  | opened (ino : Int) (flags : Nat)
  | lookup (ino : Int) (name : FileName)
  | getattr (ino : Int)
  | dirOpen (ino : Int)
  | dirRead (ino : Int) (size buff filePos : Nat)
  | dirRelease (ino : Int)
  /-- `FUSE_GETDIR` and the opcodes without a case. -/
  | other (ino : Int)

/-- `COFS_MOUNT_NOATTRIB`. -/
def MountOptions.noAttrib (o : MountOptions) : Bool := o.flags.testBit 5

/-- `FUSE_S_IFDIR`. -/
def FuseAttr.isDir (a : FuseAttr) : Bool := a.mode.testBit 14

/-- `translate_code`. -/
def translateCode : CoRc → Int
  | .notFound => -2
  | .accessDenied => -1
  | .invalidParameter => -22
  | .ok => 0
  | _ => -5

/-! ## Paths (`os/winnt/kernel/filesystem.c`) -/

/-- `'\\'`. -/
abbrev backslash : UInt8 := 0x5c

/-- `'/'`. -/
abbrev slash : UInt8 := 0x2f

namespace Filesystem

/-- The first loop of `co_os_fs_inode_to_path`: the names from an inode upwards, at most as many
as there is room for. -/
def scanNames (fs : Filesystem) : Nat → Option InodeId → List FileName
  | 0, _ => []
  | _ + 1, none => []
  | room + 1, some a =>
    match (fs.inode a).name with
    | none => []
    | some name => name :: scanNames fs room (fs.inode a).parent

/-- `co_os_fs_inode_to_path` up to its allocation. -/
def inodeToPath (fs : Filesystem) (dir : Option InodeId) (add : Nat) : FileName :=
  let fullname := fs.basePath ++ (fs.scanNames 256 dir).reverse.flatMap (backslash :: ·)
  if 0 < add ∧ fullname ≠ [] ∧ fullname.getLast? ≠ some backslash then fullname ++ [backslash]
  else fullname

/-- `co_os_fs_dir_inode_to_path` up to its allocation. -/
def dirInodeToPath (fs : Filesystem) (dir : Option InodeId) (name : FileName) : FileName :=
  if name = [] then fs.inodeToPath dir 0 else fs.inodeToPath dir (1 + name.length) ++ name

end Filesystem

/-- `sizeof(co_pathname_t)`. -/
abbrev sizeofPathname : Nat := 0x100

/-- `co_os_fs_add_last_component`. -/
def coOsFsAddLastComponent (dirname : FileName) : FileName :=
  if dirname ≠ [] ∧ dirname.getLast? ≠ some backslash ∧ dirname.length + 2 < sizeofPathname
  then dirname ++ [backslash] else dirname

/-- `co_os_fs_dir_join_unix_path`. -/
def coOsFsDirJoinUnixPath (dirname addition : FileName) : FileName :=
  let dirname := coOsFsAddLastComponent dirname
  let addition := if addition.head? = some slash then addition.tail else addition
  let added := addition.take (sizeofPathname - dirname.length - 1)
  let joined := dirname ++ added.map fun c => if c = slash then backslash else c
  if joined.getLast? = some backslash then joined.dropLast else joined

/-! ## The functions of the requests -/

namespace FsWorld

variable (env : FsEnv)

/-- `co_os_malloc`. -/
def coOsMalloc (w : FsWorld) : Bool × FsWorld :=
  (env.alloc w.allocs, { w with allocs := w.allocs + 1 })

def failed (rc : CoRc) : HostAnswer := ⟨rc, ⟨0, 0, 0, 0, 0, 0, 0, 0, 0, 0⟩, []⟩

def fileOp (op : HostFileOp) (w : FsWorld) : HostAnswer × FsWorld :=
  (env.file op, { w with ops := op :: w.ops })

/-- A function of the flat mode: it allocates its path and hands it to the host. -/
def onPath (path : FileName) (op : FileName → HostFileOp) (w : FsWorld) : HostAnswer × FsWorld :=
  let (granted, w) := w.coOsMalloc env
  if granted then w.fileOp env (op path) else (failed .outOfMemory, w)

/-- `co_fs_get_attr`, after the host's answer. -/
def coFsGetAttr (o : MountOptions) (attr : FuseAttr) : FuseAttr :=
  let mode := if o.noAttrib then (if attr.isDir then o.dirMode else o.fileMode)
    else if attr.isDir then attr.mode &&& o.dirMode else attr.mode &&& o.fileMode
  { attr with mode := mode, uid := o.uid, gid := o.gid }

def flatModeInodeRename (oldInode newInode : Option InodeId) (oldname newname : FileName)
    (w : FsWorld) : HostAnswer × FsWorld :=
  let (granted, w) := w.coOsMalloc env
  if granted then
    w.onPath env (w.fs.dirInodeToPath newInode newname)
      (.rename (w.fs.dirInodeToPath oldInode oldname))
  else (failed .outOfMemory, w)

def flatModeGetattr (dir : Option InodeId) (name : FileName) (w : FsWorld) :
    HostAnswer × FsWorld :=
  let (answer, w) := w.onPath env (w.fs.dirInodeToPath dir name) .getAttr
  ({ answer with attr := coFsGetAttr w.options answer.attr }, w)

def flatModeGetdir (dir : Option InodeId) (w : FsWorld) : HostAnswer × FsWorld :=
  w.onPath env (w.fs.inodeToPath dir 1) .getdir

def flatModeInodeReadWrite (inode : Option InodeId) (offset size buffer : Nat) (read : Bool)
    (w : FsWorld) : HostAnswer × FsWorld :=
  w.onPath env (w.fs.inodeToPath inode 0) (.readWrite · offset size buffer read)

def flatModeInodeMknod (inode : Option InodeId) (mode : Nat) (name : FileName) (w : FsWorld) :
    HostAnswer × FsWorld :=
  w.onPath env (w.fs.dirInodeToPath inode name) (.mknod · mode)

def flatModeInodeSetAttr (inode : Option InodeId) (valid : Nat) (attr : FuseAttr)
    (w : FsWorld) : HostAnswer × FsWorld :=
  -- `valid &= ~FATTR_MODE`
  let valid := if w.options.noAttrib then valid / 2 * 2 else valid
  w.onPath env (w.fs.inodeToPath inode 0) (.setAttr · valid attr)

def flatModeInodeMkdir (inode : Option InodeId) (name : FileName) (w : FsWorld) :
    HostAnswer × FsWorld :=
  w.onPath env (w.fs.dirInodeToPath inode name) .mkdir

def flatModeInodeUnlink (inode : Option InodeId) (name : FileName) (w : FsWorld) :
    HostAnswer × FsWorld :=
  w.onPath env (w.fs.dirInodeToPath inode name) .unlink

def flatModeInodeRmdir (inode : Option InodeId) (name : FileName) (w : FsWorld) :
    HostAnswer × FsWorld :=
  w.onPath env (w.fs.dirInodeToPath inode name) .rmdir

/-- `alloc_inode` for a child of `parent`. -/
def allocInode (parent : InodeId) (name : FileName) (w : FsWorld) :
    Except FsFault (Option InodeId × FsWorld) :=
  let (granted, w) := w.coOsMalloc env
  if granted then
    match w.fs.allocNumber w.fs.listInodes.length w.fs.nextInodeNum with
    | .error fault => .error fault
    | .ok (number, next) =>
      let (granted, w) := w.coOsMalloc env
      if granted then
        .ok (some w.fs.heap, { w with fs := w.fs.linkInode (some parent) (some name) number next })
      else .ok (none, { w with fs := { w.fs with nextInodeNum := next } })
  else .ok (none, w)

/-- The number of the child `name` of `dir`, which gets an inode if it has none. -/
def childNumber (dir : Option InodeId) (name : FileName) (w : FsWorld) :
    Except FsFault (Int × FsWorld) :=
  match dir, w.fs.findInode dir name with
  | _, .error fault => .error fault
  | _, .ok (some a) => .ok ((w.fs.inode a).number, w)
  | none, .ok none => .error .nullPointer
  | some p, .ok none =>
    match w.allocInode env p name with
    | .error fault => .error fault
    | .ok (none, _) => .error .nullPointer
    | .ok (some a, w) => .ok ((w.fs.inode a).number, w)

def reply (result : Int) : FsReply := ⟨result, none, none, none, []⟩

/-- A request that only translates the host's answer. -/
def translated (x : HostAnswer × FsWorld) : Except FsFault (FsReply × FsWorld) :=
  .ok (reply (translateCode x.1.rc), x.2)

def inodeMknod (dir : Option InodeId) (mode : Nat) (name : FileName) (w : FsWorld) :
    Except FsFault (FsReply × FsWorld) :=
  let attr : FuseAttr := ⟨0, mode &&& w.options.fileMode, 1, w.options.uid, w.options.gid, 0, 0,
    env.time, env.time, env.time⟩
  let (answer, w) := w.flatModeInodeMknod env dir mode name
  if answer.rc = .ok then
    match w.childNumber env dir name with
    | .error fault => .error fault
    | .ok (number, w) => .ok (⟨0, some number, some attr, none, []⟩, w)
  else .ok ({ reply (translateCode answer.rc) with attr := some attr }, w)

def inodeRename (dir : Option InodeId) (newDirNum : Int) (oldname newname : FileName)
    (w : FsWorld) : Except FsFault (FsReply × FsWorld) :=
  match w.fs.inoNumToInode newDirNum with
  | .error fault => .error fault
  | .ok none => .ok (reply (translateCode .error), w)
  | .ok (some newDir) =>
    let (answer, w) := w.flatModeInodeRename env dir (some newDir) oldname newname
    if answer.rc = .ok then
      match w.fs.findInode dir oldname with
      | .error fault => .error fault
      | .ok none => .ok (reply 0, w)
      | .ok (some oldInode) =>
        let (granted, w) := w.coOsMalloc env
        .ok (reply (if granted then 0 else translateCode .outOfMemory), { w with
          fs := w.fs.renameInode oldInode newDir (if granted then some newname else none) })
    else .ok (reply (translateCode answer.rc), w)

def inodeGetAttr (inode : Option InodeId) (w : FsWorld) : Except FsFault (FsReply × FsWorld) :=
  match inode with
  | none => .error .nullPointer
  | some a =>
    let (answer, w) := w.flatModeGetattr env (w.fs.inode a).parent ((w.fs.inode a).name.getD [])
    .ok ({ reply (translateCode answer.rc) with
      attr := if answer.rc = .ok then some answer.attr else none }, w)

def inodeLookup (dir : Option InodeId) (name : FileName) (w : FsWorld) :
    Except FsFault (FsReply × FsWorld) :=
  let (answer, w) := w.flatModeGetattr env dir name
  if answer.rc = .ok then
    match w.childNumber env dir name with
    | .error fault => .error fault
    | .ok (number, w) => .ok (⟨0, some number, some answer.attr, none, []⟩, w)
  else .ok (reply (translateCode answer.rc), w)

/-- `inode_forget`; a use of a freed inode on the way ends the host. -/
def inodeForget (inode : Option InodeId) (w : FsWorld) : Except FsFault (FsReply × FsWorld) :=
  match inode with
  | none => .ok (reply 0, w)
  | some a =>
    let t := w.fs.teardown.freeInodeWithChildren a
    if t.ledger.faults = [] then .ok (reply 0, { w with fs := t.fs }) else .error .freedInode

/-- `inode->names` is assigned. -/
def setNames (a : InodeId) (names : Option FilesystemDirNames) (w : FsWorld) : FsWorld :=
  { w with fs := w.fs.modifyInode a fun i => { i with names := names } }

def inodeDirOpen (inode : Option InodeId) (w : FsWorld) : Except FsFault (FsReply × FsWorld) :=
  match inode with
  | none => .ok (reply (translateCode .error), w)
  | some a =>
    match (w.fs.inode a).names with
    | some names =>
      .ok (reply 0,
        w.setNames a (some { names with refcount := Filesystem.intSucc names.refcount }))
    | none =>
      let (granted, w) := w.coOsMalloc env
      if granted then
        let (answer, w) := w.flatModeGetdir env (some a)
        .ok (reply (translateCode answer.rc),
          if answer.rc = .ok then w.setNames a (some ⟨answer.names, 1⟩) else w)
      else .ok (reply (translateCode .outOfMemory), w)

def inodeDirReadRequest (inode : Option InodeId) (size buff filePos : Nat) (w : FsWorld) :
    Except FsFault (FsReply × FsWorld) :=
  match inode with
  | none => .ok (reply (translateCode .error), w)
  | some a =>
    match (w.fs.inode a).names with
    | none => .ok (reply (translateCode .error), w)
    | some names =>
      let own := (w.fs.inode a).number
      let parent := match (w.fs.inode a).parent with
        | none => own
        | some p => (w.fs.inode p).number
      let copy := fun addr bytes (done : List (Nat × List UInt8)) =>
        (env.copy done.length, done ++ [(addr, bytes)])
      let (rc, s) := inodeDirRead copy own parent names.list buff size filePos env.stack []
      .ok (⟨translateCode rc, none, none, some s.fillSize, s.linux⟩, w)

def inodeDirRelease (inode : Option InodeId) (w : FsWorld) : Except FsFault (FsReply × FsWorld) :=
  match inode with
  | none => .ok (reply (translateCode .error), w)
  | some a =>
    match (w.fs.inode a).names with
    | none => .ok (reply (translateCode .error), w)
    | some names =>
      let refcount := names.refcount - 1
      .ok (reply 0, w.setNames a
        (if 0 < refcount then some { names with refcount := refcount } else none))

/-- `fs_mount`. -/
def fsMount (pathname : FileName) (options : MountOptions) (w : FsWorld) : FsWorld :=
  { w with
    options := options
    fs := { w.fs with basePath := coOsFsDirJoinUnixPath w.pathname pathname } }

/-- The second `switch` of `co_monitor_file_system`. -/
def dispatch (request : FsRequest) (inode : Option InodeId) (w : FsWorld) :
    Except FsFault (FsReply × FsWorld) :=
  match request with
  | .mount pathname options => .ok (reply 0, w.fsMount pathname options)
  | .statfs => translated (w.fileOp env (.fsStat w.fs.basePath))
  | .setattr _ valid attr => translated (w.flatModeInodeSetAttr env inode valid attr)
  | .rename _ newDir oldname newname => w.inodeRename env inode newDir oldname newname
  | .forget _ => w.inodeForget inode
  | .mknod _ mode _ name => w.inodeMknod env inode mode name
  | .mkdir _ _ name => translated (w.flatModeInodeMkdir env inode name)
  | .unlink _ name => translated (w.flatModeInodeUnlink env inode name)
  | .rmdir _ name => translated (w.flatModeInodeRmdir env inode name)
  | .write _ offset size buffer =>
    translated (w.flatModeInodeReadWrite env inode offset size buffer false)
  | .read _ offset size buffer =>
    translated (w.flatModeInodeReadWrite env inode offset size buffer true)
  | .opened _ _ => .ok (reply 0, w)
  | .lookup _ name => w.inodeLookup env inode name
  | .getattr _ => w.inodeGetAttr env inode
  | .dirOpen _ => w.inodeDirOpen env inode
  | .dirRead _ size buff filePos => w.inodeDirReadRequest env inode size buff filePos
  | .dirRelease _ => w.inodeDirRelease inode
  | .other _ => .ok (reply 0, w)

end FsWorld

/-- `params[0]`, where the request has it. -/
def FsRequest.ino : FsRequest → Option Int
  | .mount .. | .statfs => none
  | .setattr ino .. | .rename ino .. | .forget ino | .mknod ino .. | .mkdir ino ..
  | .unlink ino .. | .rmdir ino .. | .write ino .. | .read ino .. | .opened ino ..
  | .lookup ino .. | .getattr ino | .dirOpen ino | .dirRead ino .. | .dirRelease ino
  | .other ino => some ino

/-- `co_monitor_file_system` on a unit that has a file system. -/
def coMonitorFileSystem (env : FsEnv) (request : FsRequest) (w : FsWorld) :
    Except FsFault (FsReply × FsWorld) :=
  let w := { w with allocs := 0, ops := [] }
  match request.ino with
  | none => w.dispatch env request none
  | some ino =>
    match w.fs.inoNumToInode ino with
    | .error fault => .error fault
    | .ok inode => w.dispatch env request inode

/-- `co_monitor_file_system_init` for a descriptor with this path, its allocations granted. -/
def coMonitorFileSystemInit (pathname : FileName) : FsWorld :=
  let empty : Filesystem :=
    { listInodes := [], inode := fun _ => ⟨none, [], none, none, 0⟩, inodeHashes := fun _ => []
      root := none, inodesCount := 0, nextInodeNum := 1, basePath := pathname, heap := 0 }
  { fs := { empty.linkInode none none 1 2 with root := some empty.heap }
    options := ⟨0, 0, 0, 0, 0⟩, pathname := pathname, allocs := 0, ops := [] }

/-- One request; one that faults leaves nothing that could be looked at. -/
def FsWorld.step (event : FsEnv × FsRequest) (w : FsWorld) : FsWorld :=
  match coMonitorFileSystem event.1 event.2 w with
  | .error _ => w
  | .ok (_, w') => w'

end CoLinux
