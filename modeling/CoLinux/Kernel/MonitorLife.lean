import CoLinux.Kernel.Monitor
import CoLinux.Kernel.Proofs.RamMapping

/-!
# A monitor from creation to destruction (`kernel/monitor.c`)

`co_monitor_create` with its error labels, `load_configuration` with its own, the requests of a
monitor's owner, and `co_monitor_destroy`. The labels stand in the source's order, each falling
through to the next, so a label is the composition of what it does and the label below it.
-/

namespace CoLinux

open Lib

namespace Cmon

/-! ## Devices -/

/-- Takes every device of a table out and frees it. -/
def freeUnits (kind : DeviceKind) (free : Nat → Cmon → Cmon) (units : List Nat) (c : Cmon) :
    Cmon :=
  units.foldl (fun c u =>
    if c.monitor.devices kind u then free u (c.setDevice kind u false) else c) c

def coMonitorUnregisterAndFreeScsiDevices (c : Cmon) : Cmon :=
  c.freeUnits .scsi (fun u => freeBlock (.device .scsi u)) (List.range coModuleMaxCoscsi)

/-- Every block device's `free` is `free_file_blockdevice`. -/
def coMonitorUnregisterAndFreeBlockDevices (c : Cmon) : Cmon :=
  c.freeUnits .block (fun u => freeBlock (.device .block u)) (List.range coModuleMaxCobd)

/-- `co_monitor_file_system_free`, for a file system that has its root inode only. -/
def coMonitorFileSystemFree (u : Nat) (c : Cmon) : Cmon :=
  (c.release (.rootInode u)).release (.device .filesystem u)

def coMonitorUnregisterFilesystems (c : Cmon) : Cmon :=
  c.freeUnits .filesystem coMonitorFileSystemFree (List.range coModuleMaxCofs)

/-- A loop of `load_configuration` over units. -/
def loadUnits (enabled : Nat → Bool) (load : Nat → Cmon → Step Cmon) :
    List Nat → Cmon → Step Cmon
  | [], c => (.ok, c)
  | u :: us, c =>
    if enabled u then (load u c).andThen (loadUnits enabled load us)
    else loadUnits enabled load us c

def loadScsiDevice (host : HostAnswers) (u : Nat) (c : Cmon) : Step Cmon :=
  c.mallocBlock host (.device .scsi u) fun c => (.ok, c.setDevice .scsi u true)

/-- `co_monitor_file_block_init` always returns OK. -/
def loadBlockDevice (host : HostAnswers) (u : Nat) (c : Cmon) : Step Cmon :=
  c.mallocBlock host (.device .block u) fun c => (.ok, c.setDevice .block u true)

def coMonitorFileSystemInit (host : HostAnswers) (u : Nat) (c : Cmon) : Step Cmon :=
  c.request host (.device .filesystem u) (fun c => (.outOfMemory, c)) fun c =>
    c.request host (.rootInode u)
      (fun c => (.outOfMemory, c.release (.device .filesystem u)))
      fun c => (.ok, c.setDevice .filesystem u true)

def setVideoBuffer (c : Cmon) (p : Pointer) : Cmon :=
  { c with monitor := { c.monitor with videoBuffer := p } }

/-- The new `co_video_dev_t` is not cleared, so its `buffer` is whatever was there. -/
def loadVideoDevice (host : HostAnswers) (u : Nat) (c : Cmon) : Step Cmon :=
  c.mallocBlock host (.device .video u) fun c =>
    let c := c.setDevice .video u true
    (.ok, if u = 0 then c.setVideoBuffer .uninitialised else c)

/-- `co_pci_setconfig` fills `config.pci` and returns OK. -/
def coPciSetconfig (c : Cmon) : Step Cmon := (.ok, c)

def error0 (c : Cmon) : Cmon := c.coMonitorUnregisterAndFreeScsiDevices
def error1 (c : Cmon) : Cmon := error0 c.coMonitorUnregisterAndFreeBlockDevices
def error2 (c : Cmon) : Cmon := error1 c.coMonitorUnregisterFilesystems
/-- The call that would free the video devices is commented out. -/
def error3 (c : Cmon) : Cmon := error2 c

/-- `rc = x; if (!CO_OK(rc)) goto label; next`. -/
def orElse (x : Step Cmon) (label : Cmon → Cmon) (next : Cmon → Step Cmon) : Step Cmon :=
  if x.1 = .ok then next x.2 else (x.1, label x.2)

def loadConfiguration (host : HostAnswers) (c : Cmon) : Step Cmon :=
  let enabled := c.monitor.config.enabled
  orElse (loadUnits (enabled .scsi) (loadScsiDevice host) (List.range coModuleMaxCoscsi) c)
    error0 fun c =>
  orElse (loadUnits (enabled .block) (loadBlockDevice host) (List.range coModuleMaxCobd) c)
    error1 fun c =>
  orElse (loadUnits (enabled .filesystem) (coMonitorFileSystemInit host)
    (List.range coModuleMaxCofs) c) error2 fun c =>
  orElse (loadUnits (enabled .video) (loadVideoDevice host) (List.range coModuleMaxCovideo) c)
    error3 coPciSetconfig

/-! ## The operating system's part (`os/winnt/kernel/core.c`) -/

/-- `co_os_mutex_create`, whose result the caller drops. -/
def osdepMutexCreate (host : HostAnswers) (c : Cmon) : Cmon :=
  if host.grants .osdepMutex then
    let c := c.setLedger (c.monitor.ledger.acquire .osdepMutex)
    { c with monitor := { c.monitor with osdepMutex := .valid } }
  else { c with monitor := { c.monitor with osdepMutex := .null } }

/-- `co_conet_register_protocol`, whose result the caller drops. When it fails, `conet_mutex` is
left as the allocation of `osdep` left it. -/
def coConetRegisterProtocol (host : HostAnswers) (c : Cmon) : Cmon :=
  if host.grants .conetProtocol then
    let c := c.setLedger (c.monitor.ledger.acquire .conetProtocol)
    let c := { c with monitor := { c.monitor with conetProtocol := true } }
    if host.grants .conetMutex then
      let c := c.setLedger (c.monitor.ledger.acquire .conetMutex)
      { c with monitor := { c.monitor with conetMutex := .valid } }
    else { c with monitor := { c.monitor with conetMutex := .null } }
  else c

def coMonitorOsInit (host : HostAnswers) (c : Cmon) : Step Cmon :=
  c.request host .osdep (fun c => (.outOfMemory, c)) fun c =>
    let c := { c with monitor := { c.monitor with
      osdepMutex := .uninitialised, conetMutex := .uninitialised, conetProtocol := false } }
    (.ok, coConetRegisterProtocol host (osdepMutexCreate host c))

/-- `co_os_mutex_acquire` reads the mutex, which `co_os_mutex_create` may not have made. -/
def acquireConetMutex (c : Cmon) : Cmon :=
  if c.monitor.conetMutex = .valid then c else c.fault .conetMutex

def coConetUnregisterProtocol (c : Cmon) : Cmon :=
  if c.monitor.conetProtocol then
    let c := c.acquireConetMutex
    { c with monitor := { c.monitor with conetProtocol := false } }.release .conetProtocol
  else c

def coMonitorOsExit (c : Cmon) : Cmon :=
  let c := c.releasePointer c.monitor.osdepMutex .osdepMutex
  let c := coConetUnregisterProtocol c
  let c := c.releasePointer c.monitor.conetMutex .conetMutex
  c.release .osdep

/-! ## `co_monitor_create` -/

def allocSharedPage (host : HostAnswers) (c : Cmon) : Step Cmon :=
  c.request host .shared (fun c => (.error, c)) fun c =>
    c.request host .sharedHandle (fun c => (.error, c.release .shared)) fun c =>
      (.ok, { c with monitor := { c.monitor with sharedUserAddress := true } })

def freeSharedPage (c : Cmon) : Cmon := (c.release .sharedHandle).release .shared

def freePp (c : Cmon) : Cmon := c.setWorld (freePseudoPhysicalMemory c.world)

def outFreeMonitor (c : Cmon) : Cmon := c.release .monitor
def outFreeConsole (c : Cmon) : Cmon := outFreeMonitor (c.release .console)
def outFreeMutex1 (c : Cmon) : Cmon :=
  outFreeConsole (c.releasePointer c.monitor.linuxMessageQueueMutex .linuxMessageQueueMutex)
def outFreeMutex2 (c : Cmon) : Cmon :=
  outFreeMutex1 (c.releasePointer c.monitor.connectedModulesWriteLock .connectedModulesWriteLock)
def outFreeWait (c : Cmon) : Cmon := outFreeMutex2 (c.release .idleWait)
def outFreeBuffer (c : Cmon) : Cmon := outFreeWait (c.release .ioBuffer)
def outFreeSharedPage (c : Cmon) : Cmon := outFreeBuffer c.freeSharedPage
/-- The queue is empty here. -/
def outFreeLinuxMessageQueue (c : Cmon) : Cmon := outFreeSharedPage c
def outFreeOsDep (c : Cmon) : Cmon := outFreeLinuxMessageQueue c.coMonitorOsExit
def outRevertUsedMem (c : Cmon) : Cmon :=
  outFreeOsDep (c.setHostmemUsed
    ((c.kernel.hostmemUsed + wordSize - c.monitor.guest.memorySize) % wordSize))
def outFreePp (c : Cmon) : Cmon := outRevertUsedMem c.freePp
def outDestroyTimer (c : Cmon) : Cmon := outFreePp (c.release .timer)

def setGuest (c : Cmon) (g : CoMonitor) : Cmon := { c with monitor := { c.monitor with guest := g } }

/-- The monitor is complete: it is counted, listed and INITIALIZED. -/
def createListed (c : Cmon) : Step Cmon :=
  (.ok,
    { kernel := { c.kernel with
        monitorsCount := c.kernel.monitorsCount + 1
        monitors := c.monitor.id :: c.kernel.monitors }
      monitor := { c.monitor with refcount := 1, listedInManager := true, state := .initialized } })

def createVideoBuffer (host : HostAnswers) (c : Cmon) : Step Cmon :=
  if c.monitor.devices .video 0 then
    c.request host .videoBuffer (fun c => (.outOfMemory, outDestroyTimer c))
      fun c => createListed (c.setVideoBuffer .valid)
  else createListed c

def createDevices (host : HostAnswers) (c : Cmon) : Step Cmon :=
  orElse (loadConfiguration host c) outDestroyTimer (createVideoBuffer host)

def createTimer (host : HostAnswers) (c : Cmon) : Step Cmon :=
  c.request host .timer (fun c => (.outOfMemory, outFreePp c)) (createDevices host)

def createRam (host : HostAnswers) (c : Cmon) : Step Cmon :=
  orElse (c.withWorld allocPpRamMapping) outRevertUsedMem (createTimer host)

/-- `config.ram_size`, or the default for 0, in megabytes. -/
def configuredMemory (ramSize hostmemAmount : Nat) : Nat :=
  if ramSize = 0 then if 128 ≤ hostmemAmount then hostmemAmount / 4 else 16 else ramSize

/-- The memory size in bytes. -/
@[irreducible] def createMemorySize (params : CreateParams) (k : Kernel) : Nat :=
  adjustedMemorySize (configuredMemory params.config.ramSize k.hostmemAmount)

/-- The manager's memory budget is exceeded; the sum is a 32 bit sum. -/
def OverBudget (k : Kernel) (memorySize : Nat) : Prop :=
  k.hostmemUsageLimit < (k.hostmemUsed + memorySize) % wordSize

instance (k : Kernel) (memorySize : Nat) : Decidable (OverBudget k memorySize) :=
  inferInstanceAs (Decidable (_ < _))

/-- The fields that are filled in from the parameters. -/
def configure (params : CreateParams) (c : Cmon) : Cmon :=
  let corePages := (params.kernelEnd + wordSize - params.kernelStart + coArchPageSize - 1) %
    wordSize / coArchPageSize
  { c with monitor := { c.monitor with
    config := params.config
    coreEnd := (params.kernelStart + corePages * coArchPageSize) % wordSize
    guest := { c.monitor.guest with
      kernelSwapperPgDir := params.kernelSwapperPgDir
      memorySize := createMemorySize params c.kernel } } }

/-- The monitor's memory is counted as used. -/
def countMemory (c : Cmon) : Cmon :=
  (c.setHostmemUsed ((c.kernel.hostmemUsed + c.monitor.guest.memorySize) % wordSize)).setGuest
    { c.monitor.guest with endPhysical := coArchKernelOffset + c.monitor.guest.memorySize }

def createBudget (host : HostAnswers) (params : CreateParams) (c : Cmon) : Step Cmon :=
  let c := c.configure params
  if OverBudget c.kernel c.monitor.guest.memorySize then
    (.hostmemUseLimitReached, outFreeOsDep c)
  else createRam host c.countMemory

def createOs (host : HostAnswers) (params : CreateParams) (c : Cmon) : Step Cmon :=
  orElse (allocSharedPage host c) outFreeBuffer fun c =>
    orElse (coMonitorOsInit host c) outFreeLinuxMessageQueue (createBudget host params)

/-- `co_monitor_create`. The monitor that is returned with an error is the one that was freed. -/
def coMonitorCreate (host : HostAnswers) (params : CreateParams) (id : Nat) (k : Kernel) :
    Step Cmon :=
  let c : Cmon := ⟨k, .cleared id⟩
  if params.magicSizeMatches = false then (.versionMismatched, c)
  else
    c.request host .monitor (fun c => (.outOfMemory, c)) fun c =>
    c.request host .console (fun c => (.outOfMemory, outFreeMonitor c)) fun c =>
    c.request host .connectedModulesWriteLock (fun c => (.outOfMemory, outFreeConsole c)) fun c =>
    let c := { c with monitor := { c.monitor with connectedModulesWriteLock := .valid } }
    c.request host .linuxMessageQueueMutex (fun c => (.outOfMemory, outFreeMutex1 c)) fun c =>
    let c := { c with monitor := { c.monitor with linuxMessageQueueMutex := .valid } }
    c.request host .idleWait (fun c => (.outOfMemory, outFreeMutex2 c)) fun c =>
    c.request host .ioBuffer (fun c => (.outOfMemory, outFreeWait c)) fun c =>
    createOs host params (c.setGuest { c.monitor.guest with ioBuffer := host.ioBuffer })

/-! ## `co_monitor_destroy` -/

/-- `co_monitor_arch_passage_page_free`. -/
def coMonitorArchPassagePageFree (c : Cmon) : Cmon :=
  let c := { c with monitor := { c.monitor with archdep := .null } }.releasePointer
    c.monitor.archdep .archdep
  { c with monitor := { c.monitor with passagePage := .null } }.releasePointer
    c.monitor.passagePage .passagePage

/-- The video device goes back through `co_os_free`, not through `co_monitor_free`. -/
def freeVideoDevice (c : Cmon) : Cmon :=
  if c.monitor.devices .video 0 then
    ((c.releasePointer c.monitor.videoBuffer .videoBuffer).release (.device .video 0)).setDevice
      .video 0 false
  else c

def deactivateTimer (c : Cmon) : Cmon :=
  if c.monitor.state = .running ∨ c.monitor.state = .started then c.setTimerActive false else c

def unregisterDevices (c : Cmon) : Cmon :=
  c.coMonitorUnregisterAndFreeScsiDevices.coMonitorUnregisterAndFreeBlockDevices
    |>.coMonitorUnregisterFilesystems

/-- `co_monitor_destroy`; `CONFIG_COOPERATIVE_VIDEO` is not defined. -/
def coMonitorDestroy (userContext : Bool) (c : Cmon) : Cmon :=
  let c := c.deactivateTimer
  let c := if userContext then c
    else { c with monitor := { c.monitor with sharedUserAddress := false } }
  let c := c.unregisterDevices.freePp
  let c := c.setHostmemUsed
    ((c.kernel.hostmemUsed + wordSize - c.monitor.guest.memorySize) % wordSize)
  let c := (c.release .ioBuffer).freeSharedPage.coMonitorOsExit.release .timer
  let c := c.releasePointer c.monitor.connectedModulesWriteLock .connectedModulesWriteLock
  let c := c.releasePointer c.monitor.linuxMessageQueueMutex .linuxMessageQueueMutex
  (c.release .console).coMonitorArchPassagePageFree.freeVideoDevice.release .monitor

/-- The part of `co_monitor_refdown` under `manager->lock`. -/
def unlist (c : Cmon) : Cmon :=
  if c.monitor.listedInManager then
    { kernel := { c.kernel with
        monitorsCount := c.kernel.monitorsCount - 1
        monitors := c.kernel.monitors.erase c.monitor.id }
      monitor := { c.monitor with listedInManager := false } }
  else c

def setRefcount (c : Cmon) (n : Nat) : Cmon :=
  { c with monitor := { c.monitor with refcount := n } }

/-- `co_monitor_refdown`. It passes `monitor_owner` on as the user context. A monitor with
reference count 0 has been destroyed. -/
def coMonitorRefdown (monitorOwner : Bool) (c : Cmon) : Step Cmon :=
  if c.monitor.refcount = 0 then (.error, c)
  else
    let c := if monitorOwner then c.unlist else c
    let c := c.setRefcount (c.monitor.refcount - 1)
    (.ok, if c.monitor.refcount = 0 then c.coMonitorDestroy monitorOwner else c)

/-! ## Requests of the owner -/

def relist (c : Cmon) : Cmon :=
  if c.monitor.listedInManager then c
  else
    { kernel := { c.kernel with monitors := c.monitor.id :: c.kernel.monitors }
      monitor := { c.monitor with listedInManager := true } }

/-- The video buffer is cleared through its pointer. -/
def clearVideoBuffer (c : Cmon) : Cmon :=
  if c.monitor.devices .video 0 ∧ c.monitor.videoBuffer ≠ .valid then c.fault .videoBuffer else c

def coMonitorUserReset (host : HostAnswers) (c : Cmon) : Step Cmon :=
  ((c.setState .empty).freePp.withWorld allocPpRamMapping).andThen fun c =>
    orElse (loadConfiguration host c.unregisterDevices) freePp fun c =>
      (.ok, c.relist.clearVideoBuffer.setState .initialized)

/-- `co_monitor_arch_passage_page_alloc`; both pointers are overwritten. -/
def coMonitorArchPassagePageAlloc (host : HostAnswers) (c : Cmon) : Step Cmon :=
  c.request host .archdep
    (fun c => (.outOfMemory, { c with monitor := { c.monitor with archdep := .null } })) fun c =>
    let c := { c with monitor := { c.monitor with archdep := .valid } }
    c.request host .passagePage
      (fun c => (.outOfMemory, coMonitorArchPassagePageFree
        { c with monitor := { c.monitor with passagePage := .null } })) fun c =>
      let c := { c with monitor := { c.monitor with
        passagePage := .valid
        guest := { c.monitor.guest with passagePage := host.passagePage } } }
      if host.antiNxInit = .ok then (.ok, c)
      else (host.antiNxInit, c.coMonitorArchPassagePageFree)

/-- `guest_address_space_init`, with the passage page it allocates once the lookup of the page
directory has succeeded. -/
def guestAddressSpaceInit (host : HostAnswers) (c : Cmon) : Step Cmon :=
  match coMonitorGetPfn c.monitor.guest.kernelSwapperPgDir c.world with
  | .error rc => (rc, c)
  | .ok _ =>
    let passage := c.coMonitorArchPassagePageAlloc host
    passage.2.withWorld (CoLinux.guestAddressSpaceInit
      (fun w => if passage.1 = .ok then (host.passagePageInit, w) else (passage.1, w))
      host.virtToPhys)

def start (host : HostAnswers) (c : Cmon) : Step Cmon :=
  if c.monitor.state ≠ .initialized then (.error, c)
  else (c.guestAddressSpaceInit host).andThen fun c =>
    (.ok, (c.setTimerActive true).setState .started)

def loadSection (address size : Nat) (data : Option (Nat → UInt8)) (c : Cmon) : Step Cmon :=
  if c.monitor.state ≠ .initialized then (.error, c)
  else c.withWorld (coMonitorCopyRegion address size data)

/-- Where `load_initrd` puts its data. -/
def initrdAddress (memorySize size : Nat) : Nat :=
  (coArchKernelOffset + memorySize + wordSize -
    (size + coArchPageSize) % wordSize / coArchPageSize * coArchPageSize % wordSize) % wordSize

def loadInitrd (size : Nat) (data : Nat → UInt8) (c : Cmon) : Step Cmon :=
  let address := initrdAddress c.monitor.guest.memorySize size
  if c.monitor.state ≠ .initialized then (.error, c)
  else if address ≤ (c.monitor.coreEnd + 0x100000) % wordSize then (.error, c)
  else (c.withWorld (coMonitorCopyRegion address size (some data))).andThen fun c =>
    (.ok, { c with monitor := { c.monitor with initrdAddress := address, initrdSize := size } })

end Cmon

end CoLinux
