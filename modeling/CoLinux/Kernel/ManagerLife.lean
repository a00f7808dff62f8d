import CoLinux.Kernel.ReversedPfns
import CoLinux.Lib.Ledger

/-!
# Loading and unloading the manager (`kernel/manager.c`, `os/winnt/kernel/manager.c`)

`co_manager_load` acquires a lock, the debug state, the data of the architecture and of the
operating system, and the tables of the reversed map; where a step fails it goes back over the
steps before. What the manager holds is kept in a ledger, and the pages it has are those that the
host has handed out. The limit of the memory of monitors is left out.
-/

namespace CoLinux

open Lib

inductive ManagerResource
  | lock
  | debugMutex
  | debugWait
  | archdep
  | osdep
  | osMutex
  | reversedMapPfns
  | reversedMapPgds
  /-- A page that is put back without being out. -/
  | page (pfn : Nat)
  deriving DecidableEq, Repr

/-- `co_manager_state_t`, in order. -/
inductive ManagerState
  | notInitialized
  | initializedDebug
  | initializedArch
  | initializedOsdep
  | initialized
  deriving DecidableEq, Repr

/-- What the steps of a load find, apart from the script of the world's host: which blocks are
granted, how many pages there are, and what the processor has. -/
structure LoadAnswers where
  lock : Bool
  hostmemPages : Option Nat
  debugMutex : Bool
  debugWait : Bool
  archdep : Bool
  hasCpuid : Bool
  capabilities : Bool
  apic : Bool
  osdep : Bool
  osMutex : Bool

/-- The manager: its tables are in the world, and `mapPfns` and `mapPgds` say that the pointers to
them are set. -/
structure ManagerRun where
  world : World
  ledger : Ledger ManagerResource
  state : ManagerState
  mapPfns : Bool
  mapPgds : Bool

namespace ManagerRun

def acquire (s : ManagerRun) (r : ManagerResource) : ManagerRun :=
  { s with ledger := s.ledger.acquire r }

def release (s : ManagerRun) (r : ManagerResource) : ManagerRun :=
  { s with ledger := s.ledger.release r }

def setWorld (s : ManagerRun) (w : World) : ManagerRun := { s with world := w }

def setState (s : ManagerRun) (state : ManagerState) : ManagerRun := { s with state := state }

/-- New books of the page allocator, or none any more. -/
def clearPages (s : ManagerRun) : ManagerRun :=
  s.setWorld (s.world.setHost { s.world.host with out := [] })

/-! ## The parts -/

variable (a : LoadAnswers)

def coDebugInit (s : ManagerRun) : Step ManagerRun :=
  if ¬ a.debugMutex then (.outOfMemory, s)
  else if ¬ a.debugWait then (.outOfMemory, (s.acquire .debugMutex).release .debugMutex)
  else (.ok, (s.acquire .debugMutex).acquire .debugWait)

def coDebugFree (s : ManagerRun) : ManagerRun := (s.release .debugWait).release .debugMutex

def coManagerArchInit (s : ManagerRun) : Step ManagerRun :=
  if ¬ a.archdep then (.outOfMemory, s)
  else if ¬ a.hasCpuid then (.error, (s.acquire .archdep).release .archdep)
  else if ¬ a.capabilities then (.error, (s.acquire .archdep).release .archdep)
  else if ¬ a.apic then (.error, (s.acquire .archdep).release .archdep)
  else (.ok, s.acquire .archdep)

def coManagerArchFree (s : ManagerRun) : ManagerRun := s.release .archdep

/-- `co_os_manager_init`. It returns the error of its mutex with its data still allocated. -/
def coOsManagerInit (s : ManagerRun) : Step ManagerRun :=
  if ¬ a.osdep then (.outOfMemory, s)
  else if ¬ a.osMutex then (.outOfMemory, (s.acquire .osdep).clearPages)
  else (.ok, (s.acquire .osdep).clearPages.acquire .osMutex)

/-- `co_os_manager_free`; `co_winnt_free_all_pages` gives back what pages are still out. -/
def coOsManagerFree (s : ManagerRun) : ManagerRun := (s.clearPages.release .osMutex).release .osdep

/-- The second half of `co_manager_alloc_reversed_pfns`. Where its array is refused the source goes
on and writes through the null pointer: that is `none`. -/
def allocPgds (s : ManagerRun) : Option (Step ManagerRun) :=
  match coOsMalloc s.world with
  | (false, _) => none
  | (true, w) =>
    let pgds := allocReversedPgds reversedMapPgdsCount
      (w.setManager { w.manager with reversedMapPgdsCount := reversedMapPgdsCount }, 0)
    some (pgds.1, { s.acquire .reversedMapPgds with world := pgds.2.1, mapPgds := true })

/-- `co_manager_alloc_reversed_pfns`, with the blocks of its two arrays. -/
def coManagerAllocReversedPfns (s : ManagerRun) : Option (Step ManagerRun) :=
  let w := s.world.setManager { s.world.manager with
    reversedPageCount := s.world.manager.hostmemPages / ptrsPerPte }
  match coOsMalloc w with
  | (false, w) => some (.outOfMemory, s.setWorld w)
  | (true, w) =>
    let top := allocTopLevelPages w.manager.reversedPageCount
      (w.setManager { w.manager with reversedMapPfns := fun _ => 0 })
    let s := { s.acquire .reversedMapPfns with world := top.2, mapPfns := true }
    if top.1 ≠ .ok then some (top.1, s) else s.allocPgds

/-- `co_os_put_page`. A page that is not out is noted. -/
def putPage (pfn : Nat) (s : ManagerRun) : ManagerRun :=
  if pfn ∈ s.world.host.out then s.setWorld (coOsPutPage pfn s.world)
  else { s with ledger := s.ledger.fault (.page pfn) }

/-- The first `n` turns of the loop over `reversed_map_pfns`. -/
def putTopLevelPages : Nat → ManagerRun → ManagerRun
  | 0, s => s
  | n + 1, s =>
    let s := putTopLevelPages n s
    s.putPage (s.world.manager.reversedMapPfns n)

/-- The first `n` turns of the loop over `reversed_map_pgds`. -/
def putReversedPgds : Nat → ManagerRun → ManagerRun
  | 0, s => s
  | n + 1, s =>
    let s := putReversedPgds n s
    if s.world.manager.reversedMapPgds n ≠ 0 then
      s.putPage (s.world.manager.reversedMapPgds n >>> coArchPageShift)
    else s

def coManagerFreeReversedPfns (s : ManagerRun) : ManagerRun :=
  let s :=
    if s.mapPfns then
      (putTopLevelPages s.world.manager.reversedPageCount s).release .reversedMapPfns
    else s
  if s.mapPgds then
    (putReversedPgds s.world.manager.reversedMapPgdsCount s).release .reversedMapPgds
  else s

/-! ## The error path -/

def outErrMutex (s : ManagerRun) : ManagerRun := (s.release .lock).setState .notInitialized

def outErrDebug (s : ManagerRun) : ManagerRun := s.coDebugFree.outErrMutex

def outErrArch (s : ManagerRun) : ManagerRun := s.coManagerArchFree.outErrDebug

def outErrOs (s : ManagerRun) : ManagerRun := s.coOsManagerFree.outErrArch

/-! ## Load and unload -/

/-- `co_memset(manager, 0, sizeof(*manager))`, for the tables. -/
def zero (s : ManagerRun) : ManagerRun :=
  { s with
    world := s.world.setManager ⟨0, fun _ => 0, 0, fun _ => 0, 0⟩
    state := .notInitialized
    mapPfns := false
    mapPgds := false }

def setHostmemPages (s : ManagerRun) (pages : Nat) : ManagerRun :=
  s.setWorld (s.world.setManager { s.world.manager with hostmemPages := pages })

/-- The tables, where all else is there. -/
def loadTables (s : ManagerRun) : Option (Step ManagerRun) :=
  match s.coManagerAllocReversedPfns with
  | none => none
  | some r => if r.1 ≠ .ok then some (r.1, r.2.outErrOs) else some (.ok, r.2.setState .initialized)

/-- The part of the operating system, and what follows it. -/
def loadOs (s : ManagerRun) : Option (Step ManagerRun) :=
  let r := coOsManagerInit a s
  if r.1 ≠ .ok then some (r.1, r.2.outErrArch) else (r.2.setState .initializedOsdep).loadTables

/-- The part of the architecture, and what follows it. -/
def loadArch (s : ManagerRun) : Option (Step ManagerRun) :=
  let r := coManagerArchInit a s
  if r.1 ≠ .ok then some (r.1, r.2.outErrDebug) else loadOs a (r.2.setState .initializedArch)

/-- The debug state, and what follows it. -/
def loadDebug (s : ManagerRun) : Option (Step ManagerRun) :=
  let r := coDebugInit a s
  if r.1 ≠ .ok then some (r.1, r.2.outErrMutex) else loadArch a (r.2.setState .initializedDebug)

/-- `co_manager_load`; `none` if it goes through a null pointer. -/
def coManagerLoad (s : ManagerRun) : Option (Step ManagerRun) :=
  let s := s.zero
  if ¬ a.lock then some (.outOfMemory, s)
  else
    let s := s.acquire .lock
    match a.hostmemPages with
    | none => some (.error, s.outErrMutex)
    | some pages =>
      let s := s.setHostmemPages pages
      if 0x100000 < pages then some (.error, s.outErrMutex) else loadDebug a s

def coManagerUnload (s : ManagerRun) : ManagerRun :=
  let state := s.state
  let s := if state = .initialized then s.coManagerFreeReversedPfns.release .lock else s
  let s := if state = .initialized ∨ state = .initializedOsdep then s.coOsManagerFree else s
  let s :=
    if state ≠ .notInitialized ∧ state ≠ .initializedDebug then s.coManagerArchFree else s
  let s := if state ≠ .notInitialized then s.coDebugFree else s
  s.setState .notInitialized

/-- Before the driver is loaded. -/
def unloaded (w : World) : ManagerRun :=
  ⟨w.setHost { w.host with out := [] }, .empty, .notInitialized, false, false⟩

end ManagerRun

end CoLinux
