import CoLinux.Kernel.Filesystem
import CoLinux.Lib.ByteMem

/-!
# Reading a directory (`inode_dir_read` in `kernel/filesystem.c`)

The listing of an open directory is handed to the guest as a stream of `struct fuse_dirent`
records. The record is built on the stack, in the same place for every entry, and copied out
with the length of the name it stands for.
-/

namespace CoLinux

open Lib

/-- `FUSE_NAME_OFFSET`. -/
abbrev fuseNameOffset : Nat := 7

/-- `sizeof(dirent.name)`. -/
abbrev sizeofDirentName : Nat := 256

/-- `sizeof(struct fuse_dirent)`. -/
abbrev sizeofFuseDirent : Nat := 264

/-- `FUSE_DIRENT_ALIGN`. -/
def fuseDirentAlign (x : Nat) : Nat := (x + 3) / 4 * 4

/-- `FUSE_DIRENT_ALIGN(FUSE_NAME_OFFSET + slen)`. -/
def direntSize (slen : Nat) : Nat := fuseDirentAlign (fuseNameOffset + slen)

/-- The assignments to the fields of the dirent, which lies at address 0 of `stack`. -/
def fillDirent (stack : ByteMem) (ino : Int) (type : UInt8) (name : FileName) : ByteMem :=
  (((stack.writeWord 0 (ino % wordSize).toNat).copyBytes 4 2
    (ByteMem.wordByte name.length)).copyBytes 6 1 fun _ => type).copyBytes fuseNameOffset
      name.length (ByteMem.ofList name)

/-- The inode number a name is listed with. -/
def direntIno (own parent : Int) (name : FileName) : Int :=
  if name = [0x2e, 0x2e] then parent else if name = [0x2e] then own else -1

/-- The variables of `inode_dir_read`; `linux` is whatever the copies to the guest change. -/
structure DirReadState (σ : Type) where
  filePosSeek : Nat
  fillSize : Nat
  buffWriteptr : Nat
  stack : ByteMem
  linux : σ

/-- The loop of `inode_dir_read` over the names that are left. -/
def inodeDirReadLoop {σ : Type} (copy : Nat → List UInt8 → σ → CoRc × σ) (own parent : Int)
    (size filePos : Nat) : List FilesystemName → DirReadState σ → CoRc × DirReadState σ
  | [], s => (.ok, s)
  | entry :: entries, s =>
    let slen := entry.name.length
    if s.filePosSeek < filePos then
      inodeDirReadLoop copy own parent size filePos entries
        { s with filePosSeek := (s.filePosSeek + direntSize slen) % wordSize }
    -- no space left in the buffer
    else if size < direntSize slen + s.fillSize then (.ok, s)
    else
      let stack := fillDirent s.stack (direntIno own parent entry.name) entry.type
        (entry.name.take sizeofDirentName)
      let (rc, linux) := copy s.buffWriteptr (stack.slice 0 (direntSize slen)) s.linux
      if rc = .ok then
        inodeDirReadLoop copy own parent size filePos entries
          { filePosSeek := (s.filePosSeek + direntSize slen) % wordSize
            fillSize := s.fillSize + direntSize slen
            buffWriteptr := s.buffWriteptr + direntSize slen
            stack := stack
            linux := linux }
      else (rc, { s with stack := stack, linux := linux })

/-- `inode_dir_read` on an open directory. -/
def inodeDirRead {σ : Type} (copy : Nat → List UInt8 → σ → CoRc × σ) (own parent : Int)
    (listing : List FilesystemName) (buff size filePos : Nat) (stack : ByteMem) (linux : σ) :
    CoRc × DirReadState σ :=
  inodeDirReadLoop copy own parent size filePos listing ⟨0, 0, buff, stack, linux⟩

end CoLinux
