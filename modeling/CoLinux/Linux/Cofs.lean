import CoLinux.Common.Types
import CoLinux.Lib.FileBytes
import Mathlib.Logic.Function.Basic

/-!
# Files of a cofs volume in the guest (`fs/cofusefs/file.c`, `dir.c`)

The guest, a 2.6.33 kernel, keeps pages of a file of the host in its page cache. `CofsInode` is one
regular file: the inode's size, the pages and the file of the host, which nobody else writes to. The
page cache of Linux is a parameter, with what is documented of the functions that the driver and
its callers use. Requests to the host are answered or not.
-/

namespace CoLinux

open Lib

def pageCacheShift : Nat := 12
abbrev pageCacheSize : Nat := 4096
def fuseBlockShift : Nat := 16
abbrev fuseBlockSize : Nat := 65536
def fuseBlockPageShift : Nat := fuseBlockShift - pageCacheShift

/-- `MAX_LFS_FILESIZE` of a 32-bit kernel. -/
abbrev maxLfsFilesize : Nat := 2 ^ 43 - 1

/-- A page of the page cache. -/
structure CachePage where
  bytes : ByteMem
  uptodate : Bool
  dirty : Bool

/-- The pages of a file that are in the page cache. -/
abbrev CachedPages := Nat → Option CachePage

/-- What is used of Linux's page cache. `Ω` is what the outcome of a call depends on besides: memory,
other processes. -/
structure PageCache (Ω : Type) where
  /-- `grab_cache_page`, with null for want of memory. -/
  grabCachePage : Ω → Nat → CachedPages → Option CachedPages
  /-- The copy of a process's bytes to a place in a page, between `write_begin` and `write_end`. -/
  copyFromUser : Ω → Nat → Nat → ByteMem → ByteMem → ByteMem
  /-- `filemap_fdatawrite`: the pages that it hands to `writepage`. -/
  filemapFdatawrite : Ω → CachedPages → List Nat
  /-- `invalidate_inode_pages2`. -/
  invalidateInodePages2 : Ω → CachedPages → CachedPages
  /-- `vmtruncate`, with the `i_size` it leaves. -/
  vmtruncate : Ω → Nat → CachedPages → Nat × CachedPages

/-- What is documented of the page cache. -/
structure PageCache.Documented {Ω : Type} (kernel : PageCache Ω) : Prop where
  /-- A page that is there is found. -/
  found : ∀ ω index (pages : CachedPages) page, pages index = some page →
    kernel.grabCachePage ω index pages = some pages
  /-- A page that comes is neither up to date nor dirty. -/
  fresh : ∀ ω index (pages pages' : CachedPages), pages index = none →
    kernel.grabCachePage ω index pages = some pages' →
      ∃ bytes, pages' = Function.update pages index (some ⟨bytes, false, false⟩)
  copied : ∀ ω offset count data bytes,
    kernel.copyFromUser ω offset count data bytes = bytes.copyBytes offset count data
  /-- Only dirty pages are written back. -/
  dirty : ∀ ω (pages : CachedPages), ∀ i ∈ kernel.filemapFdatawrite ω pages,
    ∃ page, pages i = some page ∧ page.dirty = true
  /-- Pages go or stay, and dirty ones stay. -/
  invalidated : ∀ ω (pages : CachedPages) i,
    kernel.invalidateInodePages2 ω pages i = pages i ∨
      kernel.invalidateInodePages2 ω pages i = none ∧
        ∀ page, pages i = some page → page.dirty = false
  truncatedSize : ∀ ω size (pages : CachedPages), (kernel.vmtruncate ω size pages).1 = size
  /-- What is left of a page is clear behind the new end. -/
  truncated : ∀ ω size (pages : CachedPages) i page,
    (kernel.vmtruncate ω size pages).2 i = some page →
      ∃ was, pages i = some was ∧ page.uptodate = was.uptodate ∧ page.dirty = was.dirty ∧
        ∀ k < pageCacheSize,
          page.bytes k = if size ≤ i * pageCacheSize + k then 0 else was.bytes k
  /-- Pages before the new end stay. -/
  kept : ∀ ω size (pages : CachedPages) i page, pages i = some page → i * pageCacheSize < size →
    ((kernel.vmtruncate ω size pages).2 i).isSome

structure CofsInode where
  /-- `i_size`. -/
  size : Nat
  pages : CachedPages
  file : FileBytes

namespace CofsInode

variable {Ω : Type} (kernel : PageCache Ω)

def setPage (index : Nat) (page : CachePage) (s : CofsInode) : CofsInode :=
  { s with pages := Function.update s.pages index (some page) }

/-- `grab_cache_page` for a page of the inode. -/
def grabCachePage (ω : Ω) (index : Nat) (s : CofsInode) : Option CofsInode :=
  (kernel.grabCachePage ω index s.pages).map fun pages => { s with pages := pages }

/-! ## Reading -/

/-- `fuse_readpage`. -/
def fuseReadpage (served : Bool) (index : Nat) (s : CofsInode) : CofsInode :=
  match s.pages index with
  | none => s
  | some page =>
    let offset := index <<< pageCacheShift
    -- the host does not say how much it has read
    let buffer := if s.size < offset + pageCacheSize then fun _ => 0 else page.bytes
    if served then
      s.setPage index
        { page with bytes := s.file.read offset pageCacheSize buffer, uptodate := true }
    else s.setPage index { page with bytes := buffer }

def fileEndIndex (s : CofsInode) : Nat := s.size >>> pageCacheShift % wordSize

/-- The last page of a block, as far as the file goes. -/
def blockEndIndex (s : CofsInode) (blIndex : Nat) : Nat :=
  min ((((blIndex + 1) <<< fuseBlockPageShift) + wordSize - 1) % wordSize) s.fileEndIndex

def blockStartIndex (blIndex : Nat) : Nat := blIndex <<< fuseBlockPageShift % wordSize

/-- `fuse_is_block_uptodate`. -/
def fuseIsBlockUptodate (s : CofsInode) (blIndex : Nat) : Bool :=
  let index := blockStartIndex blIndex
  (List.range' index (s.blockEndIndex blIndex + 1 - index)).all fun index =>
    match s.pages index with
    | none => false
    | some page => page.uptodate

/-- `fuse_file_read_block`: the block's buffer, when the host answers. -/
def fuseFileReadBlock (served : Bool) (blBuf : ByteMem) (blIndex : Nat) (s : CofsInode) :
    Option ByteMem :=
  let offset := blIndex <<< fuseBlockShift
  let buffer := if s.size < offset + fuseBlockSize then fun _ => 0 else blBuf
  if served then some (s.file.read offset fuseBlockSize buffer) else none

/-- The copy of a part of the block to a page that is not up to date. -/
def fillPage (blBuf : ByteMem) (startIndex i : Nat) (s : CofsInode) : CofsInode :=
  match s.pages (startIndex + i) with
  | none => s
  | some page =>
    if page.uptodate then s
    else
      s.setPage (startIndex + i)
        { page with bytes := fun k => blBuf (i * pageCacheSize + k), uptodate := true }

/-- The loop of `fuse_cache_block`; the second argument counts the pages that are left. -/
def cacheBlockLoop (ω : Nat → Ω) (blBuf : ByteMem) (startIndex : Nat) :
    Nat → Nat → CofsInode → CofsInode
  | 0, _, s => s
  | n + 1, i, s =>
    match s.grabCachePage kernel (ω (startIndex + i)) (startIndex + i) with
    | none => s
    | some s => cacheBlockLoop ω blBuf startIndex n (i + 1) (s.fillPage blBuf startIndex i)

/-- `fuse_cache_block`. -/
def fuseCacheBlock (ω : Nat → Ω) (blBuf : ByteMem) (blIndex : Nat)
    (s : CofsInode) : CofsInode :=
  let startIndex := blockStartIndex blIndex
  cacheBlockLoop kernel ω blBuf startIndex (s.blockEndIndex blIndex + 1 - startIndex) 0 s

/-- What a big read meets at a block: the buffer that `kmalloc` gives, the host's answer, and the
page cache at its pages. -/
structure BlockAnswers (Ω : Type) where
  blBuf : Option ByteMem
  served : Bool
  ω : Nat → Ω

/-- The loop of `fuse_file_bigread`; the first argument counts the blocks that are left. -/
def bigreadLoop (answers : Nat → BlockAnswers Ω) : Nat → Nat → CofsInode → CofsInode
  | 0, _, s => s
  | n + 1, blIndex, s =>
    match (answers blIndex).blBuf with
    | none => s
    | some blBuf =>
      bigreadLoop answers n (blIndex + 1) <|
        if s.fuseIsBlockUptodate blIndex then s
        else
          match s.fuseFileReadBlock (answers blIndex).served blBuf blIndex with
          | none => s
          | some blBuf => s.fuseCacheBlock kernel (answers blIndex).ω blBuf blIndex

/-- `fuse_file_bigread`. -/
def fuseFileBigread (answers : Nat → BlockAnswers Ω) (pos count : Nat) (s : CofsInode) : CofsInode :=
  let blIndex := pos >>> fuseBlockShift % wordSize
  let blEndIndex := min ((pos + count) >>> fuseBlockShift % wordSize)
    (s.size >>> fuseBlockShift % wordSize)
  bigreadLoop kernel answers (blEndIndex + 1 - blIndex) blIndex s

/-! ## Writing -/

/-- `fuse_write_begin`. -/
def fuseWriteBegin (ω : Ω) (pos : Nat) (s : CofsInode) : Option CofsInode :=
  s.grabCachePage kernel ω (pos >>> pageCacheShift % wordSize)

/-- The copy to the page that `write_begin` gave. -/
def copyFromUser (ω : Ω) (pos copied : Nat) (data : ByteMem) (s : CofsInode) : CofsInode :=
  let index := pos >>> pageCacheShift % wordSize
  match s.pages index with
  | none => s
  | some page =>
    s.setPage index
      { page with bytes := kernel.copyFromUser ω (pos % pageCacheSize) copied data page.bytes }

/-- `write_buffer`, when the host answers it. -/
def writeBuffer (index : Nat) (page : CachePage) (offset count : Nat) (s : CofsInode) :
    CofsInode :=
  { s with
    file := s.file.write (index <<< pageCacheShift + offset) count fun k => page.bytes (offset + k) }

/-- `fuse_write_end` with `fuse_buffered_write`. -/
def fuseWriteEnd (served : Bool) (pos copied : Nat) (s : CofsInode) : CofsInode :=
  let index := pos >>> pageCacheShift % wordSize
  match s.pages index with
  | none => s
  | some page =>
    if copied = 0 ∨ served = false then s
    else
      let s := s.writeBuffer index page (pos % pageCacheSize) copied
      let s := { s with size := if s.size < pos + copied then pos + copied else s.size }
      if copied = pageCacheSize then s.setPage index { page with uptodate := true } else s

/-- One turn of the kernel's write to a page. -/
def write (ω : Ω) (served : Bool) (pos copied : Nat) (data : ByteMem) (s : CofsInode) :
    CofsInode :=
  match s.fuseWriteBegin kernel ω pos with
  | none => s
  | some s => (s.copyFromUser kernel ω pos copied data).fuseWriteEnd served pos copied

/-- A byte that a process stores into a shared mapping of the file. -/
def store (index k : Nat) (byte : UInt8) (s : CofsInode) : CofsInode :=
  match s.pages index with
  | none => s
  | some page =>
    s.setPage index { page with bytes := Function.update page.bytes k byte, dirty := true }

/-- `get_write_count`. -/
def getWriteCount (index : Nat) (s : CofsInode) : Nat :=
  if index < s.fileEndIndex then pageCacheSize
  else if s.fileEndIndex < index then 0
  else s.size % pageCacheSize

/-- `fuse_writepage`; the kernel has taken the dirty bit from the page. -/
def fuseWritepage (served : Bool) (index : Nat) (s : CofsInode) : CofsInode :=
  match s.pages index with
  | none => s
  | some page =>
    let count := s.getWriteCount index
    let s := s.setPage index { page with dirty := false }
    if count = 0 ∨ served = false then s else s.writeBuffer index page 0 count

/-! ## Attributes -/

/-- `change_attributes`, as far as the size goes. -/
def changeAttributes (ω : Ω) (size : Nat) (s : CofsInode) : CofsInode :=
  let s := if s.size ≠ size then { s with pages := kernel.invalidateInodePages2 ω s.pages } else s
  { s with size := size }

/-- `vmtruncate` of the inode. -/
def vmtruncate (ω : Ω) (size : Nat) (s : CofsInode) : CofsInode :=
  let (size, pages) := kernel.vmtruncate ω size s.pages
  { s with size := size, pages := pages }

/-- `fuse_sync_inode`; `served` says which write-backs the host answers. -/
def fuseSyncInode (ω : Ω) (served : Nat → Bool) (s : CofsInode) : CofsInode :=
  (kernel.filemapFdatawrite ω s.pages).foldl (fun s i => s.fuseWritepage (served i) i) s

/-- `fuse_setattr`. The attributes that come back are those of the request: the host fills in
nothing, and a request without a size has 0 there. -/
def fuseSetattr (ω : Ω) (served : Nat → Bool) (size : Option Nat) (answered : Bool)
    (s : CofsInode) : CofsInode :=
  let s := if size.isSome then s.fuseSyncInode kernel ω served else s
  if answered then
    let outSize := size.getD 0
    let s := { s with file := if size.isSome then s.file.setLength outSize else s.file }
    let s := if size.isSome ∧ outSize < s.size then s.vmtruncate kernel ω outSize else s
    s.changeAttributes kernel ω outSize
  else s

/-- `fuse_do_getattr`; a lookup ends in the same way. -/
def fuseDoGetattr (ω : Ω) (answered : Bool) (s : CofsInode) : CofsInode :=
  if answered then s.changeAttributes kernel ω s.file.length else s

/-- The kernel takes clean pages back, for memory or when the file is opened. -/
def drop (which : Nat → Bool) (s : CofsInode) : CofsInode :=
  { s with pages := fun i => (s.pages i).filter fun page => page.dirty || !which i }

/-- A page that a reader or a process with a mapping waits for. -/
def fault (ω : Ω) (served : Bool) (index : Nat) (s : CofsInode) : CofsInode :=
  match s.grabCachePage kernel ω index with
  | none => s
  | some s =>
    if (s.pages index).any (·.uptodate) then s else s.fuseReadpage served index

end CofsInode

/-! ## Events -/

inductive CofsEvent (Ω : Type) where
  | fault (index : Nat) (ω : Ω) (served : Bool)
  | read (pos count : Nat) (answers : Nat → CofsInode.BlockAnswers Ω)
  | write (pos copied : Nat) (data : ByteMem) (ω : Ω) (served : Bool)
  | store (index k : Nat) (byte : UInt8)
  | writepage (index : Nat) (served : Bool)
  | setattr (size : Option Nat) (ω : Ω) (served : Nat → Bool) (answered : Bool)
  | getattr (ω : Ω) (answered : Bool)
  | drop (which : Nat → Bool)

namespace CofsEvent

variable {Ω : Type} (kernel : PageCache Ω)

def step : CofsEvent Ω → CofsInode → CofsInode
  | .fault index ω served, s => s.fault kernel ω served index
  | .read pos count answers, s => s.fuseFileBigread kernel answers pos count
  | .write pos copied data ω served, s => s.write kernel ω served pos copied data
  | .store index k byte, s => s.store index k byte
  | .writepage index served, s => s.fuseWritepage served index
  | .setattr size ω served answered, s => s.fuseSetattr kernel ω served size answered
  | .getattr ω answered, s => s.fuseDoGetattr kernel ω answered
  | .drop which, s => s.drop which

end CofsEvent

/-- A file that was just opened. -/
def openedFile (file : FileBytes) : CofsInode := ⟨file.length, fun _ => none, file⟩

end CoLinux
