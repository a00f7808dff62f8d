import CoLinux.Common.Types
import CoLinux.Lib.ByteMem
import CoLinux.Lib.Ledger

/-!
# The debug log (`kernel/debug.c`)

Every writer has a section, a buffer of log records. The sections stand in the list of
`co_manager_debug_t`, next to three totals. A reader drains sections, the close of a descriptor
folds its section, and the unload of the driver frees all of them. A section is named by its
address; the addresses that `co_os_malloc` returns are taken to be new each time. The counters
are `long`, and sums of sizes of live blocks, which 32 bits hold.
-/

namespace CoLinux

open Lib

def coDebugMaxFill : Int := 0x100000

def coDebugSectionBufferMaxSize : Int := 0x10000

def coDebugSectionBufferStartSize : Int := 0x1000

abbrev SectionId := Nat

/-- `co_debug_section_t`. -/
structure DebugSection where
  buffer : ByteMem
  bufferSize : Int
  peakSize : Int
  filled : Int
  refcount : Int
  maxSize : Int
  folded : Bool

/-- The bytes that were written and not read yet. -/
def DebugSection.contents (s : DebugSection) : List UInt8 := s.buffer.slice 0 s.filled.toNat

/-- What holds a pointer to a section besides the list: `debug->section` of the driver and
`debug_section` of an open descriptor. -/
inductive SectionHolder where
  | driver
  | opened (d : Nat)
  deriving DecidableEq

/-- `co_manager_debug_t`, with the memory its sections live in and the pointers to them. -/
@[ext] structure DebugLog where
  ready : Bool
  freeing : Bool
  /-- The list `sections`. -/
  sections : List SectionId
  heap : SectionId → DebugSection
  sectionsCount : Int
  sectionsTotalSize : Int
  sectionsTotalFilled : Int
  /-- The open descriptors. -/
  opens : List Nat
  holds : SectionHolder → Option SectionId
  /-- `debug_driver_index`. -/
  driverIndex : Nat
  /-- The next address of a section. -/
  next : SectionId
  /-- How many calls are between `get_section` and `put_section`. -/
  working : SectionId → Nat
  /-- The sections that are allocated. -/
  ledger : Ledger SectionId
  /-- The sections that were freed while the list or an open descriptor had them. -/
  misfreed : List SectionId

/-! ## Vectors -/

/-- `co_debug_write_vector_t`: bytes, or further vectors. The size is a 32 bit number. -/
inductive DebugWriteVector where
  | ptr (size : Nat) (bytes : ByteMem)
  | vec (size : Nat) (vec : List DebugWriteVector)

def DebugWriteVector.size : DebugWriteVector → Nat
  | .ptr size _ => size
  | .vec size _ => size

mutual

/-- The copy of one vector. -/
def DebugWriteVector.copy (dest : Nat) (buffer : ByteMem) : DebugWriteVector → ByteMem
  | .ptr size bytes => buffer.copyBytes dest size bytes
  | .vec _ vec => memcpyVector dest buffer vec

def memcpyVector (dest : Nat) (buffer : ByteMem) : List DebugWriteVector → ByteMem
  | [] => buffer
  | v :: vs => memcpyVector ((dest + v.size) % wordSize) (v.copy dest buffer) vs

end

def coDebugWriteVectorSize (vec : List DebugWriteVector) : Nat :=
  (vec.map DebugWriteVector.size).sum % wordSize

/-! ## Sections -/

/-- What the host grants to one call that writes. -/
structure WriteHost where
  malloc : Bool
  buffer : Option ByteMem
  mutex : CoRc
  resize : Option ByteMem

namespace DebugLog

def setSection (id : SectionId) (s : DebugSection) (log : DebugLog) : DebugLog :=
  { log with heap := fun i => if i = id then s else log.heap i }

/-- `create_section`, which leaves nothing allocated when it fails. -/
def createSection (host : WriteHost) (log : DebugLog) : Except CoRc SectionId × DebugLog :=
  match host.malloc, host.buffer with
  | false, _ => (.error .outOfMemory, log)
  | true, none => (.error .outOfMemory, log)
  | true, some buffer =>
    if host.mutex ≠ .ok then (.error host.mutex, log)
    else (.ok log.next,
      { log.setSection log.next
          { buffer := buffer
            bufferSize := coDebugSectionBufferStartSize
            peakSize := coDebugSectionBufferStartSize
            filled := 0
            refcount := 0
            maxSize := coDebugSectionBufferMaxSize
            folded := false } with
        next := log.next + 1
        ledger := log.ledger.acquire log.next })

/-- `new_size` of `resize_section`, 0 where the function returns without it. -/
def newSize (s : DebugSection) : Int :=
  if s.bufferSize.tdiv 2 ≤ s.filled then
    if s.maxSize < s.bufferSize * 2 then 0 else s.bufferSize * 2
  else if s.filled < coDebugSectionBufferStartSize then s.peakSize.tdiv 2
  else 0

/-- `resize_section`; the answer is the block for the new buffer. -/
def resizeSection (granted : Option ByteMem) (id : SectionId) (log : DebugLog) : DebugLog :=
  let s := log.heap id
  if newSize s = 0 then log
  -- the source returns when the two sizes differ
  else if s.bufferSize ≠ newSize s then log
  else
    match granted with
    | none => log
    | some block =>
      { log.setSection id { s with
          buffer := block.copyBytes 0 s.filled.toNat s.buffer
          bufferSize := newSize s
          peakSize := if s.peakSize < newSize s then newSize s else s.peakSize } with
        sectionsTotalSize := log.sectionsTotalSize + (newSize s - s.bufferSize) }

def appendToBuffer (granted : Option ByteMem) (id : SectionId) (vec : List DebugWriteVector)
    (log : DebugLog) : Step DebugLog :=
  let log := resizeSection granted id log
  let s := log.heap id
  let vecLength : Int := coDebugWriteVectorSize vec
  if s.bufferSize - s.filled < vecLength then (.error, log)
  else (.ok,
    { log.setSection id { s with
        buffer := memcpyVector s.filled.toNat s.buffer vec
        filled := s.filled + vecLength } with
      sectionsTotalFilled := log.sectionsTotalFilled + vecLength })

/-- A use of a section that is no longer allocated is a fault. -/
def touch (id : SectionId) (log : DebugLog) : DebugLog :=
  if id ∈ log.ledger.live then log else { log with ledger := log.ledger.fault id }

def setWorking (id : SectionId) (n : Nat) (log : DebugLog) : DebugLog :=
  { log with working := fun i => if i = id then n else log.working i }

def addRefcount (id : SectionId) (n : Int) (log : DebugLog) : DebugLog :=
  log.setSection id { log.heap id with refcount := (log.heap id).refcount + n }

def getSection (id : SectionId) (log : DebugLog) : DebugLog :=
  ((log.touch id).addRefcount id 1).setWorking id (log.working id + 1)

/-- The list or an open descriptor has the section. -/
def InUse (log : DebugLog) (id : SectionId) : Prop :=
  id ∈ log.sections ∨ ∃ d ∈ log.opens, log.holds (.opened d) = some id

instance (log : DebugLog) (id : SectionId) : Decidable (log.InUse id) :=
  inferInstanceAs (Decidable (_ ∨ _))

/-- `co_os_free` of the section, its buffer and its mutex. -/
def freeSection (id : SectionId) (log : DebugLog) : DebugLog :=
  { log with
    ledger := log.ledger.release id
    misfreed := if log.InUse id then id :: log.misfreed else log.misfreed }

/-- `put_section`, with the result that says whether the section is still there. -/
def putSection (id : SectionId) (log : DebugLog) : Bool × DebugLog :=
  let log := (log.addRefcount id (-1)).setWorking id (log.working id - 1)
  if (log.heap id).refcount = 0 then
    (false,
      { log with
        sectionsCount := log.sectionsCount - 1
        sectionsTotalSize := log.sectionsTotalSize - (log.heap id).bufferSize }.freeSection id)
  else (true, log)

def setHolds (holder : SectionHolder) (held : Option SectionId) (log : DebugLog) : DebugLog :=
  { log with holds := fun h => if h = holder then held else log.holds h }

/-! ## Writing -/

/-- The part of `co_debug_writev` from `append_to_buffer` on. -/
def appendAndPut (holder : SectionHolder) (host : WriteHost) (vec : List DebugWriteVector)
    (id : SectionId) (log : DebugLog) : Step DebugLog :=
  let appended := appendToBuffer host.resize id vec log
  let put := appended.2.putSection id
  (appended.1, if put.1 then put.2 else put.2.setHolds holder none)

def coDebugWritev (holder : SectionHolder) (host : WriteHost) (vec : List DebugWriteVector)
    (log : DebugLog) : Step DebugLog :=
  if coDebugMaxFill < log.sectionsTotalFilled then (.ok, log)
  else if log.freeing then (.ok, log)
  else
    match log.holds holder with
    | some id => appendAndPut holder host vec id (log.getSection id)
    | none =>
      match log.createSection host with
      | (.error rc, log) => (rc, log)
      | (.ok id, log) =>
        let log := { log with
          sectionsCount := log.sectionsCount + 1
          sectionsTotalSize := log.sectionsTotalSize + (log.heap id).bufferSize
          sections := log.sections ++ [id] }
        appendAndPut holder host vec id
          (((log.getSection id).setHolds holder (some id)).addRefcount id 1)

/-- The vector that goes around the caller's: the record's header and the driver's index. -/
def logVector (vec : List DebugWriteVector) (driverIndex : Nat) : List DebugWriteVector :=
  [.ptr 2 (ByteMem.ofList [0, UInt8.ofNat (coDebugWriteVectorSize vec + 2 + 4)]),
    .vec (coDebugWriteVectorSize vec) vec,
    .vec (2 + 4) [.ptr 2 (ByteMem.ofList [10, 4]), .ptr 4 (ByteMem.wordByte driverIndex)]]

def coDebugWriteLog (holder : SectionHolder) (host : WriteHost) (vec : List DebugWriteVector)
    (log : DebugLog) : Step DebugLog :=
  if 0xf8 < coDebugWriteVectorSize vec then (.ok, log)
  else
    let log := { log with driverIndex := (log.driverIndex + 1) % wordSize }
    log.coDebugWritev holder host (logVector vec log.driverIndex)

/-- `co_debug_buf` of the driver. -/
def coDebugBuf (host : WriteHost) (size : Nat) (bytes : ByteMem) (log : DebugLog) : DebugLog :=
  if log.ready = false then log
  else (log.coDebugWriteLog .driver host [.ptr size bytes]).2

/-! ## Reading -/

/-- The results of `co_copy_to_user`, and the blocks for resizing. -/
structure ReadHost where
  copies : SectionId → Bool
  resize : SectionId → Option ByteMem

/-- The section's bytes were copied to the reader. -/
def drain (id : SectionId) (log : DebugLog) : DebugLog :=
  { log.setSection id { log.heap id with filled := 0 } with
    sectionsTotalFilled := log.sectionsTotalFilled - (log.heap id).filled }

def unlist (id : SectionId) (log : DebugLog) : DebugLog :=
  { log with sections := log.sections.erase id }

/-- A folded section leaves the list. -/
def unfold (id : SectionId) (log : DebugLog) : DebugLog :=
  let log := (log.unlist id).addRefcount id (-1)
  log.setSection id { log.heap id with folded := false }

/-- The section's bytes fit behind `user` and are copied there. -/
def Saves (host : ReadHost) (size : Nat) (user : List UInt8) (id : SectionId) (log : DebugLog) :
    Prop :=
  ¬ (size : Int) - user.length < (log.heap id).filled ∧ host.copies id = true

instance (host : ReadHost) (size : Nat) (user : List UInt8) (id : SectionId) (log : DebugLog) :
    Decidable (Saves host size user id log) := inferInstanceAs (Decidable (_ ∧ _))

/-- The reader's buffer holds `r.1`; `size` bytes fit. -/
def readSection (host : ReadHost) (size : Nat) (r : List UInt8 × DebugLog) (id : SectionId) :
    List UInt8 × DebugLog :=
  let log := r.2.getSection id
  let s := log.heap id
  let saved := Saves host size r.1 id log
  let user := if saved then r.1 ++ s.contents else r.1
  let log := if saved then log.drain id else log
  let log := if saved ∧ s.folded = true then log.unfold id else log
  let log := if (log.heap id).folded = false then resizeSection (host.resize id) id log else log
  (user, (log.putSection id).2)

/-- `co_debug_read`: the bytes in the reader's buffer and the log. -/
def coDebugRead (host : ReadHost) (size : Nat) (log : DebugLog) : List UInt8 × DebugLog :=
  log.sections.foldl (readSection host size) ([], log)

/-! ## Folding and freeing -/

/-- `co_debug_fold`; the answer is the block for the shrunk buffer. -/
def coDebugFold (granted : Option ByteMem) (id : SectionId) (log : DebugLog) : DebugLog :=
  let log := log.getSection id
  let s := log.heap id
  let log := match granted with
    | none => log
    | some block =>
      { log.setSection id { s with
          buffer := block.copyBytes 0 s.filled.toNat s.buffer
          bufferSize := s.filled } with
        sectionsTotalSize := log.sectionsTotalSize - s.bufferSize + s.filled }
  let log := log.setSection id { log.heap id with folded := true }
  (log.putSection id).2

/-- `co_manager_open`, as far as the log is concerned. -/
def coManagerOpen (d : Nat) (log : DebugLog) : DebugLog :=
  if d ∈ log.opens then log
  else { log with opens := d :: log.opens }.setHolds (.opened d) none

/-- `co_manager_close_`, as far as the log is concerned. -/
def coManagerClose (granted : Option ByteMem) (d : Nat) (log : DebugLog) : DebugLog :=
  if d ∉ log.opens then log
  else
    let log := match log.holds (.opened d) with
      | none => log
      | some id => (log.coDebugFold granted id).setHolds (.opened d) none
    { log with opens := log.opens.erase d }

/-- The body of the loop of `co_debug_free`. -/
def freeListed (log : DebugLog) (id : SectionId) : DebugLog :=
  ((((log.getSection id).unlist id).addRefcount id (-1)).putSection id).2

def coDebugFree (log : DebugLog) : DebugLog :=
  log.sections.foldl freeListed { log with ready := false, freeing := true }

/-! ## Calls -/

/-- `co_debug_init` of a manager that was cleared. -/
def coDebugInit : DebugLog where
  ready := true
  freeing := false
  sections := []
  heap := fun _ => ⟨fun _ => 0, 0, 0, 0, 0, 0, false⟩
  sectionsCount := 0
  sectionsTotalSize := 0
  sectionsTotalFilled := 0
  opens := []
  holds := fun _ => none
  driverIndex := 0
  next := 0
  working := fun _ => 0
  ledger := .empty
  misfreed := []

/-- What is done with the log: descriptors are opened and closed, log requests come from open
descriptors and from the driver, a reader reads, and the driver is unloaded. -/
inductive Call where
  | opened (d : Nat)
  | writeLog (d : Nat) (host : WriteHost) (vec : List DebugWriteVector)
  | buf (host : WriteHost) (size : Nat) (bytes : ByteMem)
  | read (host : ReadHost) (size : Nat)
  | close (granted : Option ByteMem) (d : Nat)
  | free

def step : Call → DebugLog → DebugLog
  | .opened d, log => log.coManagerOpen d
  | .writeLog d host vec, log =>
    if d ∈ log.opens then (log.coDebugWriteLog (.opened d) host vec).2 else log
  | .buf host size bytes, log => log.coDebugBuf host size bytes
  | .read host size, log => (log.coDebugRead host size).2
  | .close granted d, log => log.coManagerClose granted d
  | .free, log => log.coDebugFree

end DebugLog

end CoLinux
