import CoLinux.Kernel.DirRead

/-!
# Reading a directory in the guest (`fuse_readdir` in the cofs patch)

`fuse_readdir` asks the host for a buffer of directory records and `parse_dirfile` hands them to
`filldir` one by one, which may refuse. The position of the file advances by the length of every
record that was accepted, as the guest computes it.
-/

namespace CoLinux

open Lib

/-- `NAME_MAX`. -/
abbrev nameMax : Nat := 255

/-- `DIR_BUFSIZE`. -/
abbrev dirBufsize : Nat := 4096

/-- The arguments of a call of `filldir`. -/
structure Filldir where
  name : List UInt8
  offset : Nat
  ino : Nat
  type : UInt8

/-- An open directory: its position and what `filldir` has accepted of it, oldest first. -/
structure DirFile where
  fPos : Nat
  accepted : List Filldir

/-- `dirent->namelen`. -/
def direntNamelen (mem : ByteMem) (buf : Nat) : Nat :=
  (mem (buf + 4)).toNat + 256 * (mem (buf + 5)).toNat

/-- The loop of `parse_dirfile`. `accept` says whether `filldir` takes a record; every turn but
the last consumes some of the `nbytes`. -/
def parseDirfile (mem : ByteMem) (accept : Nat → Bool) :
    Nat → Nat → Nat → DirFile → Int × DirFile
  | 0, _, _, file => (0, file)
  | turns + 1, buf, nbytes, file =>
    if nbytes < fuseNameOffset then (0, file)
    else
      let namelen := direntNamelen mem buf
      let reclen := direntSize namelen
      if nameMax < namelen then (-71, file)
      else if nbytes < reclen then (0, file)
      else if accept file.accepted.length then
        parseDirfile mem accept turns (buf + reclen) (nbytes - reclen)
          { fPos := file.fPos + reclen
            accepted := file.accepted ++ [⟨mem.slice (buf + fuseNameOffset) namelen, file.fPos,
              mem.readWord buf, mem (buf + 6)⟩] }
      else (0, file)

/-- How things turn out during one call of `fuse_readdir`. -/
structure ReaddirEvent where
  /-- `kmalloc` succeeds, with this buffer. -/
  granted : Bool
  buf : Nat
  /-- The guest's memory before the call. -/
  mem : ByteMem
  /-- The host's stack before the call. -/
  stack : ByteMem
  /-- The result of the copies to the guest, in order. -/
  copy : Nat → CoRc
  /-- Whether `filldir` takes the record after that many others. -/
  accept : Nat → Bool

/-- The guest's memory while the host copies to it, and the sizes of the copies, last first. -/
structure GuestCopies where
  mem : ByteMem
  sizes : List Nat

/-- `co_monitor_host_to_linuxvm`. -/
def ReaddirEvent.hostToLinuxvm (e : ReaddirEvent) (addr : Nat) (bytes : List UInt8)
    (g : GuestCopies) : CoRc × GuestCopies :=
  let rc := e.copy g.sizes.length
  (rc, { mem := if rc = .ok then g.mem.copyBytes addr bytes.length (ByteMem.ofList bytes) else g.mem
         sizes := bytes.length :: g.sizes })

/-- A directory that is being read, and what was seen of the host so far. -/
structure ReaddirState where
  file : DirFile
  /-- `inode_dir_read` has returned no data. -/
  ended : Bool
  sizes : List Nat

/-- The host's part of a call. -/
def ReaddirEvent.dirRead (e : ReaddirEvent) (own parent : Int) (listing : List FilesystemName)
    (filePos : Nat) : CoRc × DirReadState GuestCopies :=
  inodeDirRead e.hostToLinuxvm own parent listing e.buf dirBufsize (filePos % wordSize) e.stack
    ⟨e.mem, []⟩

/-- `fuse_readdir`, which does not look at the result of `parse_dirfile`. -/
def fuseReaddir (own parent : Int) (listing : List FilesystemName) (e : ReaddirEvent)
    (s : ReaddirState) : ReaddirState :=
  if e.granted then
    let (rc, d) := e.dirRead own parent listing s.file.fPos
    { file := if rc = .ok
        then (parseDirfile d.linux.mem e.accept d.fillSize e.buf d.fillSize s.file).2 else s.file
      ended := s.ended || (rc = .ok && d.fillSize == 0)
      sizes := d.linux.sizes ++ s.sizes }
  else s

/-- A directory that was just opened. -/
def readdirStart : ReaddirState := ⟨⟨0, []⟩, false, []⟩

end CoLinux
