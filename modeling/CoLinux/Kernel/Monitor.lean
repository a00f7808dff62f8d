import CoLinux.Kernel.AddressSpace
import CoLinux.Lib.Ledger

/-!
# The monitor object (`kernel/monitor.h`)

What one monitor holds besides the guest's memory, the manager's books about its monitors, and
the requests the driver makes of the host. Each resource that is requested goes through the
ledger, under the name of the field that points to it.
-/

namespace CoLinux

open Lib

/-! ## Devices and resources -/

/-- The tables `scsi_devs`, `block_devs`, `filesystems` and `video_devs`. -/
inductive DeviceKind where
  | scsi
  | block
  | filesystem
  | video
  deriving DecidableEq, Repr

/-- What the driver obtains from the host for one monitor. -/
inductive Resource where
  | monitor
  | console
  | connectedModulesWriteLock
  | linuxMessageQueueMutex
  | idleWait
  | ioBuffer
  | shared
  | sharedHandle
  | osdep
  | osdepMutex
  | conetProtocol
  | conetMutex
  | timer
  | device (kind : DeviceKind) (unit : Nat)
  | rootInode (unit : Nat)
  | videoBuffer
  | archdep
  | passagePage
  deriving DecidableEq, Repr

/-- The blocks that come from `co_monitor_malloc` besides the `pp_pfns` arrays. -/
def Resource.IsBlock : Resource → Prop
  | .device .scsi _ | .device .block _ | .device .video _ => True
  | _ => False

instance : DecidablePred Resource.IsBlock := fun r => by
  unfold Resource.IsBlock
  split <;> infer_instance

/-- What a pointer field holds. -/
inductive Pointer where
  | null
  | valid
  /-- Memory that was never written. -/
  | uninitialised
  deriving DecidableEq, Repr

/-- `co_monitor_state_t`. -/
inductive MonitorState where
  | empty
  | initialized
  | running
  | started
  | terminated
  deriving DecidableEq, Repr

/-! ## Records -/

/-- The part of `co_config_t` that decides what is allocated. -/
structure CoConfig where
  ramSize : Nat
  /-- `enabled` of the unit's descriptor. -/
  enabled : DeviceKind → Nat → Bool

/-- `co_manager_ioctl_create_t`. -/
structure CreateParams where
  /-- `config.magic_size == sizeof(co_config_t)`. -/
  magicSizeMatches : Bool
  config : CoConfig
  kernelStart : Nat
  kernelEnd : Nat
  kernelSwapperPgDir : Nat
  swapper_lt : kernelSwapperPgDir < wordSize

structure Monitor where
  guest : CoMonitor
  id : Nat
  state : MonitorState
  config : CoConfig
  coreEnd : Nat
  devices : DeviceKind → Nat → Bool
  /-- `video_devs[0]->buffer`. -/
  videoBuffer : Pointer
  connectedModulesWriteLock : Pointer
  linuxMessageQueueMutex : Pointer
  osdepMutex : Pointer
  conetProtocol : Bool
  conetMutex : Pointer
  archdep : Pointer
  passagePage : Pointer
  /-- `shared_user_address != NULL`. -/
  sharedUserAddress : Bool
  timerActive : Bool
  initrdAddress : Nat
  initrdSize : Nat
  refcount : Nat
  listedInManager : Bool
  ledger : Ledger Resource

/-- The memory and the host, and the manager's books. -/
structure Kernel where
  mem : ByteMem
  host : Host
  manager : CoManager
  hostmemAmount : Nat
  hostmemUsed : Nat
  hostmemUsageLimit : Nat
  monitorsCount : Nat
  /-- The ids on the list `monitors`. -/
  monitors : List Nat

/-- A monitor `cmon`, and the kernel it lives in. -/
structure Cmon where
  kernel : Kernel
  monitor : Monitor

/-- What the host answers to the requests of one call, beyond the pages and the blocks that
`World` asks for. -/
structure HostAnswers where
  grants : Resource → Bool
  /-- `co_arch_anti_nx_init` and `co_monitor_arch_passage_page_init`. -/
  antiNxInit : CoRc
  passagePageInit : CoRc
  /-- The addresses of a new IO buffer and of a new passage page. -/
  ioBuffer : Nat
  passagePage : Nat
  /-- `co_os_virt_to_phys`. -/
  virtToPhys : Nat → Nat

/-- `co_memset(cmon, 0, sizeof(*cmon))`. -/
def Monitor.cleared (id : Nat) : Monitor where
  guest :=
    { memorySize := 0
      endPhysical := 0
      hasPpPfns := false
      ppPfns := fun _ => none
      blocksAllocated := 0
      kernelSwapperPgDir := 0
      ioBuffer := 0
      passagePage := 0
      pgd := 0 }
  id := id
  state := .empty
  config := { ramSize := 0, enabled := fun _ _ => false }
  coreEnd := 0
  devices := fun _ _ => false
  videoBuffer := .null
  connectedModulesWriteLock := .null
  linuxMessageQueueMutex := .null
  osdepMutex := .null
  conetProtocol := false
  conetMutex := .null
  archdep := .null
  passagePage := .null
  sharedUserAddress := false
  timerActive := false
  initrdAddress := 0
  initrdSize := 0
  refcount := 0
  listedInManager := false
  ledger := .empty

namespace Cmon

/-- The state the paging code works on. -/
def world (c : Cmon) : World := ⟨c.kernel.mem, c.kernel.host, c.kernel.manager, c.monitor.guest⟩

def setWorld (c : Cmon) (w : World) : Cmon where
  kernel := { c.kernel with mem := w.mem, host := w.host, manager := w.manager }
  monitor := { c.monitor with guest := w.monitor }

/-- A call into the paging code. -/
def withWorld (f : World → Step World) (c : Cmon) : Step Cmon :=
  ((f c.world).1, c.setWorld (f c.world).2)

def setLedger (c : Cmon) (l : Ledger Resource) : Cmon :=
  { c with monitor := { c.monitor with ledger := l } }

def setState (c : Cmon) (s : MonitorState) : Cmon :=
  { c with monitor := { c.monitor with state := s } }

def setDevice (c : Cmon) (kind : DeviceKind) (unit : Nat) (present : Bool) : Cmon :=
  { c with monitor := { c.monitor with
    devices := fun k u => if k = kind ∧ u = unit then present else c.monitor.devices k u } }

def setBlocks (c : Cmon) (blocks : Nat) : Cmon :=
  { c with monitor := { c.monitor with guest := { c.monitor.guest with blocksAllocated := blocks } } }

def setHostmemUsed (c : Cmon) (used : Nat) : Cmon :=
  { c with kernel := { c.kernel with hostmemUsed := used } }

def setTimerActive (c : Cmon) (active : Bool) : Cmon :=
  { c with monitor := { c.monitor with timerActive := active } }

/-! ## Requests to the host -/

/-- A request that the host grants or refuses. -/
def request (host : HostAnswers) (r : Resource) (c : Cmon) (refused granted : Cmon → Step Cmon) :
    Step Cmon :=
  if host.grants r then granted (c.setLedger (c.monitor.ledger.acquire r)) else refused c

def release (r : Resource) (c : Cmon) : Cmon := c.setLedger (c.monitor.ledger.release r)

/-- A use or a release of memory that is not the driver's. -/
def fault (r : Resource) (c : Cmon) : Cmon := c.setLedger (c.monitor.ledger.fault r)

/-- `co_os_mutex_destroy` and `co_os_free` behind a test for `NULL`. -/
def releasePointer (p : Pointer) (r : Resource) (c : Cmon) : Cmon :=
  match p with
  | .null => c
  | .valid => c.release r
  | .uninitialised => c.fault r

/-- `co_monitor_malloc` of a device. -/
def mallocBlock (host : HostAnswers) (r : Resource) (c : Cmon) (granted : Cmon → Step Cmon) :
    Step Cmon :=
  c.request host r (fun c => (.outOfMemory, c))
    fun c => granted (c.setBlocks (c.monitor.guest.blocksAllocated + 1))

/-- `co_monitor_free` of a device. -/
def freeBlock (r : Resource) (c : Cmon) : Cmon :=
  (c.release r).setBlocks (c.monitor.guest.blocksAllocated - 1)

end Cmon

end CoLinux
