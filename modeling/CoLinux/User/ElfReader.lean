import CoLinux.Lib.CText
import CoLinux.Lib.Traced
import CoLinux.User.ElfLoad

/-!
# Reading an image (`user/elf_load.c`)

What `co_elf_image_read`, the symbol lookups and the section loop read of the file that the daemon
has in memory. Every header, table and string is found through offsets, counts and indices of the
file, and none of them is compared with the file's size.
-/

namespace CoLinux

open Lib

/-- `sizeof(Elf32_Sym)`. -/
def sizeofElf32Sym : Nat := 16

/-- The image in a buffer of the daemon. -/
structure ElfBuffer extends CoElfData where
  inMemory : buffer + size ≤ wordSize

/-- The pointers of `co_elf_data` that `co_elf_image_read` sets. -/
structure ElfTables where
  sectionStringTableSection : Nat
  stringTableSection : Nat
  symbolTableSection : Nat

/-- `".strtab"` and `".symtab"`. -/
def strtabName : CText := ⟨[46, 115, 116, 114, 116, 97, 98], by decide⟩
def symtabName : CText := ⟨[46, 115, 121, 109, 116, 97, 98], by decide⟩

namespace ElfBuffer

/-- A computation that reads bytes at addresses. -/
abbrev Reading := Traced (Nat × Nat)

variable (pl : ElfBuffer)

def word (a : Nat) : Reading Nat := .read (a, 4) (pl.mem.readWord a)

def half (a : Nat) : Reading Nat := .read (a, 2) (pl.mem.readHalf a)

def byte (a : Nat) : Reading UInt8 := .read (a, 1) (pl.mem a)

def bytes (a n : Nat) : Reading (List UInt8) := .read (a, n) (pl.mem.slice a n)

/-- `strcmp(text, name) == 0`, for the rest of a name. -/
def strcmpFrom : Nat → List UInt8 → Reading Bool
  | text, [] => do
    let c ← pl.byte text
    return decide (c = 0)
  | text, d :: name => do
    let c ← pl.byte text
    if c = d then strcmpFrom (text + 1) name else return false

def strcmp (text : Nat) (name : CText) : Reading Bool := pl.strcmpFrom text name.val

/-- `co_get_section_header`. -/
def coGetSectionHeader (index : Nat) : Reading Nat := do
  let shoff ← pl.word (pl.buffer + 32)
  let shentsize ← pl.half (pl.buffer + 46)
  return (pl.buffer + shoff + shentsize * index) % wordSize

/-- `co_get_at_offset`. -/
def coGetAtOffset (shdr index : Nat) : Reading Nat := do
  let shOffset ← pl.word (shdr + 16)
  return (pl.buffer + (shOffset + index) % wordSize) % wordSize

/-- The loop of `co_get_section_by_name`. -/
def trySection (names : Nat) (name : CText) (index : Nat) : Reading (Option Nat) := do
  let shdr ← pl.coGetSectionHeader index
  let shName ← pl.word shdr
  let text ← pl.coGetAtOffset names shName
  let same ← pl.strcmp text name
  return if same then some shdr else none

def coGetSectionByName (names : Nat) (name : CText) : Reading (Option Nat) := do
  let count ← pl.half (pl.buffer + 48)
  .firstSome (pl.trySection names name) 1 (count - 1)

/-- The end of `co_elf_image_read`: the tables of strings and symbols. -/
def findTables (names : Nat) : Reading (Except CoRc ElfTables) := do
  match ← pl.coGetSectionByName names strtabName with
  | none => return .error .error
  | some strings =>
    let symbols ← pl.coGetSectionByName names symtabName
    return match symbols with
      | none => .error .error
      | some symbols => .ok ⟨names, strings, symbols⟩

/-- `co_elf_image_read`; `malloc` tells whether there is memory for the `co_elf_data`. -/
def coElfImageRead (malloc : Bool) : Reading (Except CoRc ElfTables) :=
  if malloc then do
    let ident ← pl.bytes pl.buffer 4
    if ident ≠ [0x7f, 0x45, 0x4c, 0x46] then return .error .errorReadingVmlinuxFile
    else do
      let shstrndx ← pl.half (pl.buffer + 50)
      let names ← pl.coGetSectionHeader shstrndx
      if names = 0 then return .error .error
      else pl.findTables names
  else return .error .outOfMemory

/-- The loop of `co_get_symbol_by_name`. -/
def trySymbol (tables : ElfTables) (name : CText) (index : Nat) : Reading (Option Nat) := do
  let symbol ← pl.coGetAtOffset tables.symbolTableSection (index * sizeofElf32Sym)
  let stName ← pl.word symbol
  let text ← pl.coGetAtOffset tables.stringTableSection stName
  let same ← pl.strcmp text name
  return if same then some symbol else none

def coGetSymbolByName (tables : ElfTables) (name : CText) : Reading (Option Nat) := do
  let size ← pl.word (tables.symbolTableSection + 20)
  .firstSome (pl.trySymbol tables name) 0 (size / sizeofElf32Sym)

/-- `co_get_symbol_offset`. -/
def coGetSymbolOffset (symbol : Nat) : Reading Nat := do
  let shndx ← pl.half (symbol + 14)
  let shdr ← pl.coGetSectionHeader shndx
  let value ← pl.word (symbol + 4)
  let shAddr ← pl.word (shdr + 12)
  return (value + wordSize - shAddr) % wordSize

/-- A name is looked up, and the offset of its symbol if there is one. -/
def lookup (tables : ElfTables) (name : CText) : Reading (Option Nat) := do
  match ← pl.coGetSymbolByName tables name with
  | none => return none
  | some symbol =>
    let offset ← pl.coGetSymbolOffset symbol
    return some offset

/-- What becomes of the request for a section: whether there is memory for it, and the driver's
answer. -/
structure SectionHost where
  malloc : Nat → Bool
  answer : Nat → CoRc

/-- `params.user_ptr` of `co_section_load`. -/
def sectionUserPtr (shdr shType : Nat) : Reading Nat :=
  if shType = shtNobits then pure 0 else pl.coGetAtOffset shdr 0

/-- The contents that are copied behind the parameters. -/
def copied (userPtr size : Nat) : Reading (List UInt8) :=
  if userPtr ≠ 0 then pl.bytes userPtr size else pure []

/-- `co_user_monitor_load_section`. Nothing is an answer that does not end the loop. -/
def coUserMonitorLoadSection (host : SectionHost) (index userPtr size : Nat) :
    Reading (Option CoRc) :=
  if host.malloc index then do
    let _ ← pl.copied userPtr size
    return if host.answer index = .ok then none else some (host.answer index)
  else return some .outOfMemory

def coSectionLoad (host : SectionHost) (index : Nat) : Reading (Option CoRc) := do
  let shdr ← pl.coGetSectionHeader index
  let shFlags ← pl.word (shdr + 8)
  if shFlags &&& shfAlloc ≠ 0 then do
    let shType ← pl.word (shdr + 4)
    let userPtr ← pl.sectionUserPtr shdr shType
    let _ ← pl.word (shdr + 12)
    let shSize ← pl.word (shdr + 20)
    pl.coUserMonitorLoadSection host index userPtr shSize
  else return none

/-- `co_elf_image_load`. -/
def coElfImageLoad (host : SectionHost) : Reading CoRc := do
  let sections ← pl.half (pl.buffer + 48)
  let failed ← Traced.firstSome (pl.coSectionLoad host) 1 (sections - 1)
  return failed.getD .ok

end ElfBuffer

end CoLinux
