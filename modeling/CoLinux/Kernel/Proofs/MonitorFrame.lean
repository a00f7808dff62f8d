import CoLinux.Kernel.MonitorLife
import CoLinux.Kernel.Proofs.PpBlocks

/-!
# What the parts of a monitor's life leave alone

The device code touches the device tables, the ledger and the block counter, and the error
labels of `co_monitor_create` leave the kernel's books alone but for the memory they give back.
-/

namespace CoLinux

open Lib

/-! ## The manager's books -/

/-- What the manager records about its monitors and their memory. -/
structure Books where
  hostmemAmount : Nat
  hostmemUsed : Nat
  hostmemUsageLimit : Nat
  monitorsCount : Nat
  monitors : List Nat

def Kernel.books (k : Kernel) : Books where
  hostmemAmount := k.hostmemAmount
  hostmemUsed := k.hostmemUsed
  hostmemUsageLimit := k.hostmemUsageLimit
  monitorsCount := k.monitorsCount
  monitors := k.monitors

@[simp] theorem books_hostmemUsed (k : Kernel) : k.books.hostmemUsed = k.hostmemUsed := rfl

/-- The books after a monitor's memory has been given back. -/
def Books.reverted (b : Books) (memorySize : Nat) : Books :=
  { b with hostmemUsed := (b.hostmemUsed + wordSize - memorySize) % wordSize }

theorem reverted_hostmemUsed (b : Books) (memorySize : Nat) :
    (b.reverted memorySize).hostmemUsed =
      (b.hostmemUsed + wordSize - memorySize) % wordSize := rfl

/-- The books with one more monitor. -/
def Books.withMonitor (b : Books) (id memorySize : Nat) : Books :=
  { b with
    hostmemUsed := (b.hostmemUsed + memorySize) % wordSize
    monitorsCount := b.monitorsCount + 1
    monitors := id :: b.monitors }

theorem withMonitor_hostmemUsed (b : Books) (id memorySize : Nat) :
    (b.withMonitor id memorySize).hostmemUsed = (b.hostmemUsed + memorySize) % wordSize := rfl

namespace Cmon

variable {host : HostAnswers} {c : Cmon}

/-! ## Requests and releases -/

@[simp] theorem setLedger_kernel (c : Cmon) (l : Ledger Resource) :
    (c.setLedger l).kernel = c.kernel := rfl
@[simp] theorem release_kernel (c : Cmon) (r : Resource) : (c.release r).kernel = c.kernel := rfl
@[simp] theorem fault_kernel (c : Cmon) (r : Resource) : (c.fault r).kernel = c.kernel := rfl
@[simp] theorem setDevice_kernel (c : Cmon) (k : DeviceKind) (u : Nat) (b : Bool) :
    (c.setDevice k u b).kernel = c.kernel := rfl
@[simp] theorem setBlocks_kernel (c : Cmon) (n : Nat) : (c.setBlocks n).kernel = c.kernel := rfl
@[simp] theorem setVideoBuffer_kernel (c : Cmon) (p : Pointer) :
    (c.setVideoBuffer p).kernel = c.kernel := rfl
@[simp] theorem setState_kernel (c : Cmon) (s : MonitorState) : (c.setState s).kernel = c.kernel :=
  rfl

@[simp] theorem releasePointer_kernel (p : Pointer) (r : Resource) (c : Cmon) :
    (c.releasePointer p r).kernel = c.kernel := by
  cases p <;> rfl

/-- What holds after a refusal and after a grant holds after the request. -/
theorem request_rule {P : Step Cmon → Prop} {r : Resource} {refused granted : Cmon → Step Cmon}
    (onRefused : host.grants r = false → P (refused c))
    (onGranted : host.grants r = true → P (granted (c.setLedger (c.monitor.ledger.acquire r)))) :
    P (c.request host r refused granted) := by
  unfold request
  cases h : host.grants r with
  | false => simpa using onRefused h
  | true => simpa using onGranted h

/-- The same for a step with an error label. -/
theorem orElse_rule {P : Step Cmon → Prop} {x : Step Cmon} {label : Cmon → Cmon}
    {next : Cmon → Step Cmon} (onOk : x.1 = .ok → P (next x.2))
    (onFail : x.1 ≠ .ok → P (x.1, label x.2)) : P (orElse x label next) := by
  unfold orElse
  by_cases h : x.1 = .ok
  · rw [if_pos h]
    exact onOk h
  · rw [if_neg h]
    exact onFail h

/-! ## Devices -/

/-- Everything but the device tables, the ledger and the block counter. -/
def apartFromDevices (c : Cmon) : Cmon where
  kernel := c.kernel
  monitor := { c.monitor with
    devices := fun _ _ => false
    videoBuffer := .null
    ledger := .empty
    guest := { c.monitor.guest with blocksAllocated := 0 } }

/-- What ignores the device tables and every free ignores the whole loop. -/
theorem freeUnits_keeps {α : Type} (obs : Cmon → α) {kind : DeviceKind}
    {free : Nat → Cmon → Cmon} (device : ∀ c u b, obs (c.setDevice kind u b) = obs c)
    (freed : ∀ u c, obs (free u c) = obs c) (units : List Nat) (c : Cmon) :
    obs (c.freeUnits kind free units) = obs c := by
  induction units generalizing c with
  | nil => rfl
  | cons u us ih =>
    rw [freeUnits, List.foldl_cons, ← freeUnits, ih]
    split
    · rw [freed, device]
    · rfl

theorem loadUnits_keeps {α : Type} (obs : Cmon → α) {enabled : Nat → Bool}
    {load : Nat → Cmon → Step Cmon} (loaded : ∀ u c, obs (load u c).2 = obs c)
    (units : List Nat) (c : Cmon) : obs (loadUnits enabled load units c).2 = obs c := by
  induction units generalizing c with
  | nil => rfl
  | cons u us ih =>
    rw [loadUnits]
    split
    · by_cases ok : (load u c).1 = .ok
      · rw [Step.andThen_of_ok ok, ih, loaded]
      · rw [Step.andThen_of_ne ok, loaded]
    · exact ih c

theorem freeScsiDevices_apart (c : Cmon) :
    c.coMonitorUnregisterAndFreeScsiDevices.apartFromDevices = c.apartFromDevices := by
  rw [coMonitorUnregisterAndFreeScsiDevices]
  exact freeUnits_keeps apartFromDevices (by intros; rfl) (by intros; rfl) _ c

theorem freeBlockDevices_apart (c : Cmon) :
    c.coMonitorUnregisterAndFreeBlockDevices.apartFromDevices = c.apartFromDevices := by
  rw [coMonitorUnregisterAndFreeBlockDevices]
  exact freeUnits_keeps apartFromDevices (by intros; rfl) (by intros; rfl) _ c

theorem freeFilesystems_apart (c : Cmon) :
    c.coMonitorUnregisterFilesystems.apartFromDevices = c.apartFromDevices := by
  rw [coMonitorUnregisterFilesystems]
  exact freeUnits_keeps apartFromDevices (by intros; rfl) (by intros; rfl) _ c

theorem unregisterDevices_apart (c : Cmon) :
    c.unregisterDevices.apartFromDevices = c.apartFromDevices := by
  rw [unregisterDevices, freeFilesystems_apart, freeBlockDevices_apart, freeScsiDevices_apart]

theorem error1_apart (c : Cmon) : (error1 c).apartFromDevices = c.apartFromDevices := by
  rw [error1, error0, freeScsiDevices_apart, freeBlockDevices_apart]

theorem error2_apart (c : Cmon) : (error2 c).apartFromDevices = c.apartFromDevices := by
  rw [error2, error1_apart, freeFilesystems_apart]

theorem request_apart {r : Resource} {refused granted : Cmon → Step Cmon}
    (onRefused : (refused c).2.apartFromDevices = c.apartFromDevices)
    (onGranted : ∀ c', c'.apartFromDevices = c.apartFromDevices →
      (granted c').2.apartFromDevices = c.apartFromDevices) :
    (c.request host r refused granted).2.apartFromDevices = c.apartFromDevices :=
  request_rule (P := fun x => x.2.apartFromDevices = c.apartFromDevices) (fun _ => onRefused)
    fun _ => onGranted _ rfl

theorem loadScsiDevice_apart (host : HostAnswers) (u : Nat) (c : Cmon) :
    (loadScsiDevice host u c).2.apartFromDevices = c.apartFromDevices :=
  request_apart rfl fun _ h => h

theorem loadBlockDevice_apart (host : HostAnswers) (u : Nat) (c : Cmon) :
    (loadBlockDevice host u c).2.apartFromDevices = c.apartFromDevices :=
  request_apart rfl fun _ h => h

theorem coMonitorFileSystemInit_apart (host : HostAnswers) (u : Nat) (c : Cmon) :
    (coMonitorFileSystemInit host u c).2.apartFromDevices = c.apartFromDevices :=
  request_apart rfl fun c' h => by
    rw [← h]
    exact request_apart rfl fun _ h' => h'

theorem loadVideoDevice_apart (host : HostAnswers) (u : Nat) (c : Cmon) :
    (loadVideoDevice host u c).2.apartFromDevices = c.apartFromDevices :=
  request_apart rfl fun c' h => by
    rw [← h]
    dsimp only
    split <;> rfl

/-- One loop of `load_configuration` with its label. -/
theorem orElse_apart {x : Step Cmon} {label : Cmon → Cmon} {next : Cmon → Step Cmon}
    (done : x.2.apartFromDevices = c.apartFromDevices)
    (labelled : ∀ c, (label c).apartFromDevices = c.apartFromDevices)
    (rest : ∀ c, (next c).2.apartFromDevices = c.apartFromDevices) :
    (orElse x label next).2.apartFromDevices = c.apartFromDevices :=
  orElse_rule (P := fun r => r.2.apartFromDevices = c.apartFromDevices)
    (fun _ => (rest x.2).trans done) fun _ => (labelled x.2).trans done

theorem loadConfiguration_apart (host : HostAnswers) (c : Cmon) :
    (loadConfiguration host c).2.apartFromDevices = c.apartFromDevices := by
  unfold loadConfiguration
  refine orElse_apart (loadUnits_keeps _ (loadScsiDevice_apart host) _ c) freeScsiDevices_apart
    fun c => ?_
  refine orElse_apart (loadUnits_keeps _ (loadBlockDevice_apart host) _ c) error1_apart fun c => ?_
  refine orElse_apart (loadUnits_keeps _ (coMonitorFileSystemInit_apart host) _ c) error2_apart
    fun c => ?_
  exact orElse_apart (loadUnits_keeps _ (loadVideoDevice_apart host) _ c) error2_apart
    fun _ => rfl

/-! ## The books under the error labels -/

@[simp] theorem setWorld_books (c : Cmon) (w : World) :
    (c.setWorld w).kernel.books = c.kernel.books := rfl
@[simp] theorem freePp_books (c : Cmon) : c.freePp.kernel.books = c.kernel.books := rfl

/-- Two monitors that differ in their devices only are in the same kernel. -/
theorem kernel_of_apart {c c' : Cmon} (h : c'.apartFromDevices = c.apartFromDevices) :
    c'.kernel = c.kernel := congrArg (·.kernel) h

theorem memorySize_of_apart {c c' : Cmon} (h : c'.apartFromDevices = c.apartFromDevices) :
    c'.monitor.guest.memorySize = c.monitor.guest.memorySize :=
  congrArg (·.monitor.guest.memorySize) h

theorem freePp_memorySize (c : Cmon) :
    c.freePp.monitor.guest.memorySize = c.monitor.guest.memorySize :=
  (freePseudoPhysicalMemory_freed c.world).memorySize

@[simp] theorem acquireConetMutex_kernel (c : Cmon) : c.acquireConetMutex.kernel = c.kernel := by
  unfold acquireConetMutex
  split <;> rfl

@[simp] theorem coMonitorOsExit_kernel (c : Cmon) : c.coMonitorOsExit.kernel = c.kernel := by
  unfold coMonitorOsExit coConetUnregisterProtocol
  dsimp only
  split <;> simp

@[simp] theorem outFreeWait_kernel (c : Cmon) : (outFreeWait c).kernel = c.kernel := by
  simp [outFreeWait, outFreeMutex2, outFreeMutex1, outFreeConsole, outFreeMonitor]

@[simp] theorem outFreeBuffer_kernel (c : Cmon) : (outFreeBuffer c).kernel = c.kernel := by
  simp [outFreeBuffer]

@[simp] theorem outFreeLinuxMessageQueue_kernel (c : Cmon) :
    (outFreeLinuxMessageQueue c).kernel = c.kernel := by
  simp [outFreeLinuxMessageQueue, outFreeSharedPage, freeSharedPage]

@[simp] theorem outFreeOsDep_kernel (c : Cmon) : (outFreeOsDep c).kernel = c.kernel := by
  simp [outFreeOsDep]

theorem outRevertUsedMem_books (c : Cmon) : (outRevertUsedMem c).kernel.books =
    c.kernel.books.reverted c.monitor.guest.memorySize := by
  rw [outRevertUsedMem, outFreeOsDep_kernel]
  rfl

theorem outFreePp_books (c : Cmon) : (outFreePp c).kernel.books =
    c.kernel.books.reverted c.monitor.guest.memorySize := by
  rw [outFreePp, outRevertUsedMem_books, freePp_memorySize, freePp_books]

theorem outDestroyTimer_books (c : Cmon) : (outDestroyTimer c).kernel.books =
    c.kernel.books.reverted c.monitor.guest.memorySize :=
  outFreePp_books _

end Cmon

end CoLinux
