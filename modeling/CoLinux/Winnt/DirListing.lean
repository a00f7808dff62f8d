import CoLinux.Kernel.FilesystemRequests
import CoLinux.Winnt.Block

/-!
# Directory listings (`kernel/filesystem.c`, `os/winnt/kernel/fileio.c`)

A listing hangs off the inode of its directory: a container, which counts the opens, and a block
for each name. `co_filesystem_getdir_free` frees the names. The model numbers the listings in the
order of their containers and keeps what is allocated for them on a ledger.
-/

namespace CoLinux

open Lib

/-- What is allocated for a listing. -/
inductive ListingBlock where
  /-- The `co_filesystem_dir_names_t`. -/
  | container (listing : Nat)
  /-- The `co_filesystem_name_t` of a name. -/
  | entry (listing i : Nat)
  deriving DecidableEq

/-- `NT_SUCCESS`. -/
def ntSuccess : NtStatus → Bool
  | .success | .pending => true
  | .other code => code < 0x80000000
  | _ => false

/-- `FUSE_DT_DIR` and `FUSE_DT_REG`. -/
abbrev fuseDtDir : UInt8 := 4
abbrev fuseDtReg : UInt8 := 8

/-- An entry that `ZwQueryDirectoryFile` has filled in. -/
structure DirEntry where
  directory : Bool
  /-- Its name in UTF-8, and the result of `co_utf8_wcstombs`. -/
  name : FileName
  rc : CoRc
  /-- Whether `co_os_malloc` grants the block for it. -/
  granted : Bool

/-- How `co_os_file_getdir` finds the host. -/
structure DirQuery where
  /-- The result of `co_winnt_utf8_to_unicode`. -/
  unicode : CoRc
  /-- What `ZwCreateFile` returns. -/
  status : NtStatus
  bufferGranted : Bool
  /-- The entries of all buffers that are filled before a call fails. -/
  entries : List DirEntry

/-- The names of a listing, and the ledger. -/
abbrev ListingNames := List FilesystemName × Ledger ListingBlock

/-- The blocks of the first `k` names. -/
def entryBlocks (listing k : Nat) : List ListingBlock :=
  (List.range k).map (.entry listing)

/-- One turn of the inner loop of `co_os_file_getdir`. -/
def addDirEntry (listing : Nat) (e : DirEntry) (s : ListingNames) : Step ListingNames :=
  if e.granted then
    let ledger := s.2.acquire (.entry listing s.1.length)
    if e.rc = .ok then
      (.ok, s.1 ++ [⟨if e.directory then fuseDtDir else fuseDtReg, e.name⟩], ledger)
    else (e.rc, s.1, ledger.release (.entry listing s.1.length))
  else (.outOfMemory, s)

/-- The loops of `co_os_file_getdir`. -/
def addDirEntries (listing : Nat) : List DirEntry → ListingNames → Step ListingNames
  | [], s => (.ok, s)
  | e :: entries, s => (addDirEntry listing e s).andThen (addDirEntries listing entries)

/-- `co_filesystem_getdir_free`: it frees the names. -/
def coFilesystemGetdirFree (listing : Nat) (s : ListingNames) : ListingNames :=
  ([], s.2.releaseAll (entryBlocks listing s.1.length))

/-- `co_os_file_getdir`. -/
def coOsFileGetdir (listing : Nat) (query : DirQuery) (ledger : Ledger ListingBlock) :
    Step ListingNames :=
  if query.unicode ≠ .ok then (query.unicode, [], ledger)
  else if ntSuccess query.status = false then (coStatusConvert query.status, [], ledger)
  else if query.bufferGranted = false then (.outOfMemory, [], ledger)
  else
    let r := addDirEntries listing query.entries ([], ledger)
    if r.1 = .ok then r else (r.1, coFilesystemGetdirFree listing r.2)

/-! ## The file system with its listings -/

inductive ListingRequest where
  | dirOpen (ino : Int)
  | dirRead (ino : Int) (size buff filePos : Nat)
  | dirRelease (ino : Int)
  | forget (ino : Int)

def ListingRequest.toFsRequest : ListingRequest → FsRequest
  | .dirOpen ino => .dirOpen ino
  | .dirRead ino size buff filePos => .dirRead ino size buff filePos
  | .dirRelease ino => .dirRelease ino
  | .forget ino => .forget ino

def ListingRequest.ino : ListingRequest → Int
  | .dirOpen ino | .dirRead ino _ _ _ | .dirRelease ino | .forget ino => ino

inductive ListingEvent where
  /-- A request; `query` is for the listing it may make. -/
  | request (env : FsEnv) (query : DirQuery) (request : ListingRequest)
  /-- `co_monitor_file_system_free`. -/
  | teardown

/-- A unit, and what is allocated for the listings of its file system. -/
structure DirListings where
  /-- `cmon->filesystems[unit]`. -/
  filesystem : Option FsWorld
  /-- The number of the listing that the `names` of an inode points to. -/
  listing : InodeId → Nat
  /-- The number of the next listing. -/
  made : Nat
  /-- The opens of a directory that were answered with 0, less the releases that were. -/
  opens : InodeId → Nat
  ledger : Ledger ListingBlock
  /-- How requests have left the C language. -/
  faults : List FsFault

namespace DirListings

/-- `env` with `co_os_file_getdir` answering what it found. -/
def answering (env : FsEnv) (found : Step ListingNames) : FsEnv :=
  { env with file := fun op =>
      match op with
      | .getdir _ => { env.file op with rc := found.1, names := found.2.1 }
      | op => env.file op }

/-- The listing that `inode_dir_open` makes for `inode`. -/
def makeListing (env : FsEnv) (found : Step ListingNames) (a : InodeId) (s : DirListings) :
    DirListings :=
  if env.alloc 0 then
    { s with
      listing := Function.update s.listing a s.made
      made := s.made + 1
      ledger :=
        -- the path is allocated next
        if env.alloc 1 = false then
          (s.ledger.acquire (.container s.made)).release (.container s.made)
        else if found.1 = .ok then found.2.2
        else found.2.2.release (.container s.made) }
  else s

/-- The names and the container of a listing, as far as freeing inodes has freed them. -/
def freedBlocks (w : FsWorld) (after : Ledger FsBlock) (s : DirListings) : List ListingBlock :=
  w.fs.listInodes.flatMap fun a =>
    match (w.fs.inode a).names with
    | none => []
    | some names =>
      (if .entries a ∈ after.live then [] else entryBlocks (s.listing a) names.list.length) ++
        if .names a ∈ after.live then [] else [.container (s.listing a)]

/-- What a request does to the blocks of the listings. -/
def account (w : FsWorld) (env : FsEnv) (found : Step ListingNames) (a : InodeId)
    (s : DirListings) : ListingRequest → DirListings
  | .dirOpen _ => if (w.fs.inode a).names.isSome then s else s.makeListing env found a
  | .dirRead .. => s
  | .dirRelease _ =>
    match (w.fs.inode a).names with
    | none => s
    | some names =>
      if 0 < names.refcount - 1 then s
      else { s with ledger := (coFilesystemGetdirFree (s.listing a) (names.list, s.ledger)).2 }
  | .forget _ =>
    { s with ledger :=
        s.ledger.releaseAll (s.freedBlocks w (w.fs.teardown.freeInodeWithChildren a).ledger) }

/-- What the guest knows of its opens. -/
def count (r : ListingRequest) (a : InodeId) (result : Int) (s : DirListings) : DirListings :=
  match r with
  | .dirOpen _ =>
    if result = 0 then { s with opens := Function.update s.opens a (s.opens a + 1) } else s
  | .dirRelease _ =>
    if result = 0 then { s with opens := Function.update s.opens a (s.opens a - 1) } else s
  | _ => s

/-- `co_monitor_file_system`. -/
def request (env : FsEnv) (query : DirQuery) (r : ListingRequest) (w : FsWorld)
    (s : DirListings) : DirListings :=
  let found := coOsFileGetdir s.made query (s.ledger.acquire (.container s.made))
  match coMonitorFileSystem (answering env found) r.toFsRequest w with
  | .error fault => { s with faults := s.faults ++ [fault] }
  | .ok (reply, w') =>
    match w.fs.inoNumToInode r.ino with
    | .ok (some a) =>
      { (s.account w env found a r).count r a reply.result with filesystem := some w' }
    | _ => { s with filesystem := some w' }

/-- `co_monitor_file_system_free`, as far as it frees listings. -/
def coMonitorFileSystemFree (w : FsWorld) (s : DirListings) : DirListings :=
  { s with
    filesystem := none
    ledger := s.ledger.releaseAll (s.freedBlocks w w.fs.teardown.coMonitorFileSystemFree.ledger) }

/-- A unit without a file system answers with `-ENODEV`. -/
def step (e : ListingEvent) (s : DirListings) : DirListings :=
  match s.filesystem with
  | none => s
  | some w =>
    match e with
    | .request env query r => s.request env query r w
    | .teardown => s.coMonitorFileSystemFree w

/-- A file system in which no directory is open. -/
def start (w : FsWorld) : DirListings where
  filesystem := some w
  listing := fun _ => 0
  made := 0
  opens := fun _ => 0
  ledger := Ledger.empty
  faults := []

end DirListings

end CoLinux
