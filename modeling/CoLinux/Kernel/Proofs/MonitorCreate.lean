import CoLinux.Kernel.Proofs.MonitorFrame
import CoLinux.Kernel.Proofs.PpScript

/-!
# What `co_monitor_create` returns

Either an error and the books it was called with, or a monitor that is counted, listed and
INITIALIZED, with its memory added to the books.
-/

namespace CoLinux

open Lib

namespace Cmon

variable {host : HostAnswers} {c : Cmon}

/-! ## The tail of the constructor -/

/-- A step of the constructor gave up after the monitor's memory had been counted. -/
def Reverted (c : Cmon) (r : Step Cmon) : Prop :=
  r.1 ≠ .ok ∧ r.2.kernel.books = c.kernel.books.reverted c.monitor.guest.memorySize

/-- The constructor came to its end, and only the devices differ from `c`. -/
def Listed (c : Cmon) (r : Step Cmon) : Prop :=
  r.1 = .ok ∧ r.2.apartFromDevices = (createListed c).2.apartFromDevices

theorem Reverted.of_apart {c c' : Cmon} {r : Step Cmon}
    (h : c'.apartFromDevices = c.apartFromDevices) (hr : Reverted c' r) : Reverted c r :=
  ⟨hr.1, by rw [hr.2, kernel_of_apart h, memorySize_of_apart h]⟩

theorem createListed_apart {c c' : Cmon} (h : c'.apartFromDevices = c.apartFromDevices) :
    (createListed c').2.apartFromDevices = (createListed c).2.apartFromDevices := by
  have erased (c : Cmon) : (createListed c).2.apartFromDevices =
      (createListed c.apartFromDevices).2.apartFromDevices := by
    simp only [createListed, apartFromDevices]
  rw [erased, h, ← erased]

theorem Listed.of_apart {c c' : Cmon} {r : Step Cmon}
    (h : c'.apartFromDevices = c.apartFromDevices) (hr : Listed c' r) : Listed c r :=
  ⟨hr.1, hr.2.trans (createListed_apart h)⟩

theorem createVideoBuffer_cases (host : HostAnswers) (c : Cmon) :
    Reverted c (createVideoBuffer host c) ∨ Listed c (createVideoBuffer host c) := by
  unfold createVideoBuffer
  split
  · refine request_rule (P := fun r => Reverted c r ∨ Listed c r) (fun _ => .inl ?_)
      fun _ => .inr ⟨rfl, rfl⟩
    exact ⟨by simp, outDestroyTimer_books c⟩
  · exact .inr ⟨rfl, rfl⟩

theorem createDevices_cases (host : HostAnswers) (c : Cmon) :
    Reverted c (createDevices host c) ∨ Listed c (createDevices host c) := by
  have apart := loadConfiguration_apart host c
  refine orElse_rule (P := fun r => Reverted c r ∨ Listed c r) (fun _ => ?_) fun failed => ?_
  · exact (createVideoBuffer_cases host _).imp (.of_apart apart) (.of_apart apart)
  · exact .inl (.of_apart apart ⟨failed, outDestroyTimer_books _⟩)

theorem createTimer_cases (host : HostAnswers) (c : Cmon) :
    Reverted c (createTimer host c) ∨ Listed c (createTimer host c) := by
  refine request_rule (P := fun r => Reverted c r ∨ Listed c r) (fun _ => .inl ?_) fun _ => ?_
  · exact ⟨by simp, outFreePp_books c⟩
  · have cases := createDevices_cases host (c.setLedger (c.monitor.ledger.acquire .timer))
    exact cases.imp (.of_apart rfl) (.of_apart rfl)

theorem createRam_cases (host : HostAnswers) {c : Cmon} (small : SmallMemory c.world)
    (absent : c.monitor.guest.hasPpPfns = false) (ppOk : PpOk c.world) :
    Reverted c (createRam host c) ∨
      ∃ w, allocPpRamMapping c.world = (.ok, w) ∧ Listed (c.setWorld w) (createRam host c) := by
  have allocated := allocPpRamMapping_allocated small absent ppOk
  have memorySize : (c.withWorld allocPpRamMapping).2.monitor.guest.memorySize =
    c.monitor.guest.memorySize := allocated.memorySize
  refine orElse_rule (P := fun r => Reverted c r ∨
    ∃ w, allocPpRamMapping c.world = (.ok, w) ∧ Listed (c.setWorld w) r)
    (fun ok => ?_) fun failed => .inl ⟨failed, ?_⟩
  · obtain reverted | listed := createTimer_cases host (c.withWorld allocPpRamMapping).2
    · refine .inl ⟨reverted.1, ?_⟩
      rw [reverted.2, memorySize]
      rfl
    · exact .inr ⟨_, Step.eq_of_ok ok, listed⟩
  · rw [outRevertUsedMem_books, memorySize]
    rfl

/-! ## The head of the constructor -/

/-- A monitor in the middle of its creation: cleared but for what has been acquired. -/
structure Fresh (k : Kernel) (id : Nat) (c : Cmon) : Prop where
  kernel : c.kernel = k
  id : c.monitor.id = id
  hasPpPfns : c.monitor.guest.hasPpPfns = false
  ppGroups : c.world.ppGroups = []
  blocks : c.monitor.guest.blocksAllocated = 0
  devices : c.monitor.devices = fun _ _ => false
  videoBuffer : c.monitor.videoBuffer = .null
  timerActive : c.monitor.timerActive = false
  archdep : c.monitor.archdep = .null
  passagePage : c.monitor.passagePage = .null

theorem fresh_cleared (k : Kernel) (id : Nat) : Fresh k id ⟨k, .cleared id⟩ :=
  ⟨rfl, rfl, rfl, by simp [World.ppGroups, world, Monitor.cleared], rfl, rfl, rfl, rfl, rfl, rfl⟩

variable {k : Kernel} {id : Nat}

/-- What the constructor writes before the budget test is none of the fields of `Fresh`. -/
theorem Fresh.update {c c' : Cmon} (h : Fresh k id c) (kernel : c'.kernel = c.kernel)
    (monitor : c'.monitor.id = c.monitor.id)
    (guest : c'.monitor.guest.hasPpPfns = c.monitor.guest.hasPpPfns ∧
      c'.monitor.guest.ppPfns = c.monitor.guest.ppPfns ∧
      c'.monitor.guest.blocksAllocated = c.monitor.guest.blocksAllocated)
    (devices : c'.monitor.devices = c.monitor.devices ∧
      c'.monitor.videoBuffer = c.monitor.videoBuffer)
    (rest : c'.monitor.timerActive = c.monitor.timerActive ∧
      c'.monitor.archdep = c.monitor.archdep ∧ c'.monitor.passagePage = c.monitor.passagePage) :
    Fresh k id c' where
  kernel := kernel.trans h.kernel
  id := monitor.trans h.id
  hasPpPfns := guest.1.trans h.hasPpPfns
  ppGroups := by
    have := h.ppGroups
    simpa only [World.ppGroups, world, guest.2.1] using this
  blocks := guest.2.2.trans h.blocks
  devices := devices.1.trans h.devices
  videoBuffer := devices.2.trans h.videoBuffer
  timerActive := rest.1.trans h.timerActive
  archdep := rest.2.1.trans h.archdep
  passagePage := rest.2.2.trans h.passagePage

theorem Fresh.acquire {c : Cmon} (h : Fresh k id c) (r : Resource) :
    Fresh k id (c.setLedger (c.monitor.ledger.acquire r)) :=
  h.update rfl rfl ⟨rfl, rfl, rfl⟩ ⟨rfl, rfl⟩ ⟨rfl, rfl, rfl⟩

theorem allocSharedPage_fresh {c : Cmon} (h : Fresh k id c) :
    Fresh k id (allocSharedPage host c).2 := by
  refine request_rule (P := fun r => Fresh k id r.2) (fun _ => h) fun _ => ?_
  refine request_rule (P := fun r => Fresh k id r.2) (fun _ => ?_) fun _ => ?_ <;>
    exact h.update rfl rfl ⟨rfl, rfl, rfl⟩ ⟨rfl, rfl⟩ ⟨rfl, rfl, rfl⟩

theorem osdepMutexCreate_fresh {c : Cmon} (h : Fresh k id c) :
    Fresh k id (osdepMutexCreate host c) := by
  unfold osdepMutexCreate
  split <;> exact h.update rfl rfl ⟨rfl, rfl, rfl⟩ ⟨rfl, rfl⟩ ⟨rfl, rfl, rfl⟩

theorem coConetRegisterProtocol_fresh {c : Cmon} (h : Fresh k id c) :
    Fresh k id (coConetRegisterProtocol host c) := by
  unfold coConetRegisterProtocol
  split
  · dsimp only
    split <;> exact h.update rfl rfl ⟨rfl, rfl, rfl⟩ ⟨rfl, rfl⟩ ⟨rfl, rfl, rfl⟩
  · exact h

theorem coMonitorOsInit_fresh {c : Cmon} (h : Fresh k id c) :
    Fresh k id (coMonitorOsInit host c).2 := by
  refine request_rule (P := fun r => Fresh k id r.2) (fun _ => h) fun _ => ?_
  apply coConetRegisterProtocol_fresh
  apply osdepMutexCreate_fresh
  exact h.update rfl rfl ⟨rfl, rfl, rfl⟩ ⟨rfl, rfl⟩ ⟨rfl, rfl, rfl⟩

/-! ## The whole constructor -/

/-- `co_monitor_create` failed, and the books are as they were. -/
def CreateFailed (k : Kernel) (r : Step Cmon) : Prop := r.1 ≠ .ok ∧ r.2.kernel.books = k.books

/-- What `co_monitor_create` returns with success. -/
structure Created (params : CreateParams) (k : Kernel) (id : Nat) (c : Cmon) : Prop where
  budget : ¬ OverBudget k (createMemorySize params k)
  books : c.kernel.books = k.books.withMonitor id (createMemorySize params k)
  id : c.monitor.id = id
  config : c.monitor.config = params.config
  memorySize : c.monitor.guest.memorySize = createMemorySize params k
  swapper : c.monitor.guest.kernelSwapperPgDir = params.kernelSwapperPgDir
  hasPpPfns : c.monitor.guest.hasPpPfns = true
  state : c.monitor.state = .initialized
  refcount : c.monitor.refcount = 1
  listed : c.monitor.listedInManager = true
  timerActive : c.monitor.timerActive = false
  archdep : c.monitor.archdep = .null
  passagePage : c.monitor.passagePage = .null

theorem createMemorySize_bounds (params : CreateParams) (k : Kernel) :
    8 * 1048576 ≤ createMemorySize params k ∧ createMemorySize params k ≤ 984 * 1048576 := by
  obtain ⟨n, least, most, size⟩ := adjustedMemorySize_cases
    (configuredMemory params.config.ramSize k.hostmemAmount)
  rw [createMemorySize, size]
  omega

/-- Adding a monitor's memory to the books and taking it off again. -/
theorem reverted_added {used size : Nat} (hu : used < wordSize) (hs : size ≤ wordSize) :
    ((used + size) % wordSize + wordSize - size) % wordSize = used := by
  simp only [wordSize] at *
  omega

theorem Fresh.counted {c : Cmon} (h : Fresh k id c) (params : CreateParams) :
    Fresh k id (c.configure params) ∧
      (c.configure params).monitor.guest.memorySize = createMemorySize params k :=
  ⟨h.update rfl rfl ⟨rfl, rfl, rfl⟩ ⟨rfl, rfl⟩ ⟨rfl, rfl, rfl⟩, h.kernel ▸ rfl⟩

/-- The constructor from the budget's success on. -/
theorem created_of_listed {params : CreateParams} {k : Kernel} {id : Nat} {c c' : Cmon} {w : World}
    (h : Fresh k id c) (budget : ¬ OverBudget k (createMemorySize params k))
    (pp : PpAllocated (c.configure params).countMemory.world (.ok, w))
    (apart : c'.apartFromDevices =
      (createListed ((c.configure params).countMemory.setWorld w)).2.apartFromDevices) :
    Created params k id c' := by
  have memorySize := (h.counted params).2
  have kernel := congrArg Cmon.kernel apart
  have monitor := congrArg Cmon.monitor apart
  constructor
  · exact budget
  · refine (congrArg Kernel.books kernel).trans ?_
    have same : (c.configure params).kernel = k := h.kernel
    have own : (c.configure params).monitor.id = id := h.id
    rw [← memorySize, ← own, ← same]
    rfl
  · exact (congrArg Monitor.id monitor).trans h.id
  · exact congrArg Monitor.config monitor
  · exact ((congrArg (·.guest.memorySize) monitor).trans pp.memorySize).trans memorySize
  · exact (congrArg (·.guest.kernelSwapperPgDir) monitor).trans pp.swapper
  · exact (congrArg (·.guest.hasPpPfns) monitor).trans (pp.hasPpPfns.mpr rfl)
  · exact congrArg Monitor.state monitor
  · exact congrArg Monitor.refcount monitor
  · exact congrArg Monitor.listedInManager monitor
  · exact (congrArg Monitor.timerActive monitor).trans h.timerActive
  · exact (congrArg Monitor.archdep monitor).trans h.archdep
  · exact (congrArg Monitor.passagePage monitor).trans h.passagePage

theorem createBudget_cases (host : HostAnswers) (params : CreateParams) {k : Kernel} {id : Nat}
    {c : Cmon} (used : k.hostmemUsed < wordSize) (h : Fresh k id c) :
    CreateFailed k (createBudget host params c) ∨
      (createBudget host params c).1 = .ok ∧ Created params k id (createBudget host params c).2 := by
  obtain ⟨-, most⟩ := createMemorySize_bounds params k
  obtain ⟨fresh, memorySize⟩ := h.counted params
  unfold createBudget
  dsimp only
  rw [fresh.kernel, memorySize]
  by_cases exceeds : OverBudget k (createMemorySize params k)
  · rw [if_pos exceeds]
    refine .inl ⟨by simp, ?_⟩
    rw [outFreeOsDep_kernel, fresh.kernel]
  rw [if_neg exceeds]
  have absent : (c.configure params).countMemory.monitor.guest.hasPpPfns = false := fresh.hasPpPfns
  have ppOk : PpOk (c.configure params).countMemory.world := fun _ => fresh.ppGroups
  have small : SmallMemory (c.configure params).countMemory.world :=
    Nat.le_trans (Nat.le_of_eq memorySize) most
  obtain ⟨failed, books⟩ | ⟨w, allocated, ok, apart⟩ := createRam_cases host small absent ppOk
  · refine .inl ⟨failed, ?_⟩
    have counted : (c.configure params).countMemory.kernel.books =
        { k.books with hostmemUsed := (k.hostmemUsed + createMemorySize params k) % wordSize } := by
      rw [← memorySize, ← fresh.kernel]
      rfl
    have size : (c.configure params).countMemory.monitor.guest.memorySize = _ := memorySize
    rw [books, size, counted, Books.reverted]
    dsimp only
    rw [reverted_added used (Nat.le_trans most (by decide))]
    rfl
  · have pp := allocPpRamMapping_allocated small absent ppOk
    rw [allocated] at pp
    exact .inr ⟨ok, created_of_listed h exceeds pp apart⟩

/-- A label above the operating system's part leaves the kernel alone. -/
theorem createFailed_of_kernel {r : Step Cmon} (failed : r.1 ≠ .ok) (kernel : r.2.kernel = k) :
    CreateFailed k r := ⟨failed, congrArg Kernel.books kernel⟩

theorem createOs_cases (host : HostAnswers) (params : CreateParams) {k : Kernel} {id : Nat}
    {c : Cmon} (used : k.hostmemUsed < wordSize) (h : Fresh k id c) :
    CreateFailed k (createOs host params c) ∨
      (createOs host params c).1 = .ok ∧ Created params k id (createOs host params c).2 := by
  have shared : Fresh k id (allocSharedPage host c).2 := allocSharedPage_fresh h
  refine orElse_rule (P := fun r => CreateFailed k r ∨ r.1 = .ok ∧ Created params k id r.2)
    (fun _ => ?_) fun failed => .inl (createFailed_of_kernel failed ?_)
  · have os : Fresh k id (coMonitorOsInit host (allocSharedPage host c).2).2 :=
      coMonitorOsInit_fresh shared
    refine orElse_rule (P := fun r => CreateFailed k r ∨ r.1 = .ok ∧ Created params k id r.2)
      (fun _ => ?_) fun failed => .inl (createFailed_of_kernel failed ?_)
    · exact createBudget_cases host params used os
    · rw [outFreeLinuxMessageQueue_kernel, os.kernel]
  · rw [outFreeBuffer_kernel, shared.kernel]

/-- A request of the constructor: the label below it leaves the kernel alone. -/
theorem createRequest_cases {params : CreateParams} {k : Kernel} {id : Nat} {c : Cmon}
    (h : Fresh k id c) {r : Resource} {label : Cmon → Cmon} {next : Cmon → Step Cmon}
    (kernel : (label c).kernel = c.kernel)
    (rest : ∀ c, Fresh k id c →
      CreateFailed k (next c) ∨ (next c).1 = .ok ∧ Created params k id (next c).2) :
    CreateFailed k (c.request host r (fun c => (.outOfMemory, label c)) next) ∨
      (c.request host r (fun c => (.outOfMemory, label c)) next).1 = .ok ∧
        Created params k id (c.request host r (fun c => (.outOfMemory, label c)) next).2 :=
  request_rule (P := fun r => CreateFailed k r ∨ r.1 = .ok ∧ Created params k id r.2)
    (fun _ => .inl (createFailed_of_kernel (by simp) (kernel.trans h.kernel)))
    fun _ => rest _ (h.acquire r)

/-- `co_monitor_create` either leaves the books alone or returns a monitor that is in them. -/
theorem coMonitorCreate_cases (host : HostAnswers) (params : CreateParams) (id : Nat) {k : Kernel}
    (used : k.hostmemUsed < wordSize) :
    CreateFailed k (coMonitorCreate host params id k) ∨
      (coMonitorCreate host params id k).1 = .ok ∧
        Created params k id (coMonitorCreate host params id k).2 := by
  unfold coMonitorCreate
  dsimp only
  split
  · exact .inl (createFailed_of_kernel (by simp) rfl)
  refine createRequest_cases (fresh_cleared k id) rfl fun c monitor => ?_
  refine createRequest_cases monitor rfl fun c console => ?_
  refine createRequest_cases console rfl fun c lock => ?_
  have lock : Fresh k id { c with monitor := { c.monitor with
    connectedModulesWriteLock := .valid } } :=
    lock.update rfl rfl ⟨rfl, rfl, rfl⟩ ⟨rfl, rfl⟩ ⟨rfl, rfl, rfl⟩
  refine createRequest_cases lock ?_ fun c mutex => ?_
  · simp [outFreeMutex1, outFreeConsole, outFreeMonitor]
  have mutex : Fresh k id { c with monitor := { c.monitor with
    linuxMessageQueueMutex := .valid } } :=
    mutex.update rfl rfl ⟨rfl, rfl, rfl⟩ ⟨rfl, rfl⟩ ⟨rfl, rfl, rfl⟩
  refine createRequest_cases mutex ?_ fun c wait => ?_
  · simp [outFreeMutex2, outFreeMutex1, outFreeConsole, outFreeMonitor]
  refine createRequest_cases wait (outFreeWait_kernel c) fun c buffer => ?_
  refine createOs_cases host params used ?_
  exact buffer.update rfl rfl ⟨rfl, rfl, rfl⟩ ⟨rfl, rfl⟩ ⟨rfl, rfl, rfl⟩

/-! ## The way to the budget test -/

/-- The resources that are requested before the budget test. -/
def requestsBeforeBudget : List Resource :=
  [.monitor, .console, .connectedModulesWriteLock, .linuxMessageQueueMutex, .idleWait, .ioBuffer,
    .shared, .sharedHandle, .osdep]

/-- The call gets to the budget test. -/
def ReachesBudget (host : HostAnswers) (params : CreateParams) : Prop :=
  params.magicSizeMatches = true ∧ ∀ r ∈ requestsBeforeBudget, host.grants r = true

instance (host : HostAnswers) (params : CreateParams) : Decidable (ReachesBudget host params) :=
  inferInstanceAs (Decidable (_ ∧ _))

theorem request_granted {r : Resource} (h : host.grants r = true) (c : Cmon)
    (refused granted : Cmon → Step Cmon) :
    c.request host r refused granted = granted (c.setLedger (c.monitor.ledger.acquire r)) :=
  if_pos h

theorem request_refused {r : Resource} (h : host.grants r = false) (c : Cmon)
    (refused granted : Cmon → Step Cmon) : c.request host r refused granted = refused c := by
  rw [request, h]
  rfl

theorem createOs_reaches {params : CreateParams} {c : Cmon} (h : Fresh k id c)
    (shared : host.grants .shared = true) (handle : host.grants .sharedHandle = true)
    (osdep : host.grants .osdep = true) :
    ∃ c', Fresh k id c' ∧ createOs host params c = createBudget host params c' := by
  have sharedPage : (allocSharedPage host c).1 = .ok := by
    simp [allocSharedPage, request_granted, shared, handle]
  have os (c : Cmon) : (coMonitorOsInit host c).1 = .ok := by
    simp [coMonitorOsInit, request_granted, osdep]
  refine ⟨(coMonitorOsInit host (allocSharedPage host c).2).2,
    coMonitorOsInit_fresh (allocSharedPage_fresh h), ?_⟩
  rw [createOs, orElse, if_pos sharedPage, orElse, if_pos (os _)]

theorem coMonitorCreate_reaches {params : CreateParams} (h : ReachesBudget host params) :
    ∃ c, Fresh k id c ∧ coMonitorCreate host params id k = createBudget host params c := by
  obtain ⟨magic, grants⟩ := h
  simp only [requestsBeforeBudget, List.forall_mem_cons, List.not_mem_nil, false_implies,
    implies_true, and_true] at grants
  obtain ⟨monitor, console, lock, mutex, wait, buffer, shared, handle, osdep⟩ := grants
  unfold coMonitorCreate
  simp only [magic, request_granted, monitor, console, lock, mutex, wait, buffer,
    Bool.true_eq_false, if_false]
  apply createOs_reaches ?_ shared handle osdep
  exact (fresh_cleared k id).update rfl rfl ⟨rfl, rfl, rfl⟩ ⟨rfl, rfl⟩ ⟨rfl, rfl, rfl⟩

/-- A request of a call that succeeds was granted. -/
theorem granted_of_ok {r : Resource} {c : Cmon} {rc : CoRc} {label : Cmon → Cmon}
    {next : Cmon → Step Cmon} (bad : rc ≠ .ok)
    (ok : (c.request host r (fun c => (rc, label c)) next).1 = .ok) :
    host.grants r = true ∧ (next (c.setLedger (c.monitor.ledger.acquire r))).1 = .ok := by
  cases h : host.grants r with
  | false =>
    rw [request_refused h] at ok
    exact absurd ok bad
  | true =>
    rw [request_granted h] at ok
    exact ⟨rfl, ok⟩

theorem orElse_ok {x : Step Cmon} {label : Cmon → Cmon} {next : Cmon → Step Cmon}
    (ok : (orElse x label next).1 = .ok) : x.1 = .ok ∧ (next x.2).1 = .ok := by
  unfold orElse at ok
  by_cases h : x.1 = .ok
  · rw [if_pos h] at ok
    exact ⟨h, ok⟩
  · rw [if_neg h] at ok
    exact absurd ok h

/-- A call that succeeds got to the budget test. -/
theorem reachesBudget_of_ok {params : CreateParams}
    (ok : (coMonitorCreate host params id k).1 = .ok) : ReachesBudget host params := by
  have bad : CoRc.outOfMemory ≠ .ok := by decide
  unfold coMonitorCreate at ok
  cases magic : params.magicSizeMatches with
  | false => simp [magic] at ok
  | true =>
  simp only [magic, Bool.true_eq_false, if_false] at ok
  obtain ⟨monitor, ok⟩ := granted_of_ok bad ok
  obtain ⟨console, ok⟩ := granted_of_ok bad ok
  obtain ⟨lock, ok⟩ := granted_of_ok bad ok
  obtain ⟨mutex, ok⟩ := granted_of_ok bad ok
  obtain ⟨wait, ok⟩ := granted_of_ok bad ok
  obtain ⟨buffer, ok⟩ := granted_of_ok bad ok
  obtain ⟨sharedPage, ok⟩ := orElse_ok ok
  obtain ⟨shared, handle⟩ := granted_of_ok (by decide) sharedPage
  obtain ⟨handle, -⟩ := granted_of_ok (by decide) handle
  obtain ⟨os, -⟩ := orElse_ok ok
  obtain ⟨osdep, -⟩ := granted_of_ok bad os
  refine ⟨magic, ?_⟩
  simp [requestsBeforeBudget, monitor, console, lock, mutex, wait, buffer, shared, handle, osdep]

/-! ## A host that grants everything -/

def grantsAll : HostAnswers where
  grants := fun _ => true
  antiNxInit := .ok
  passagePageInit := .ok
  ioBuffer := 0
  passagePage := 0
  virtToPhys := fun address => address

/-- A monitor of `ramSize` megabytes without devices. -/
def plainParams (ramSize : Nat) : CreateParams where
  magicSizeMatches := true
  config := { ramSize := ramSize, enabled := fun _ _ => false }
  kernelStart := 0xc0100000
  kernelEnd := 0xc0400000
  kernelSwapperPgDir := 0xc0300000
  swapper_lt := by decide

/-- A host with memory for a small guest or two; its first frames hold the reversed map. -/
def smallHost : Kernel where
  mem := fun _ => 0
  host :=
    { out := List.range' 4096 16
      answers := (List.range' 4112 40).map some
      mallocs := List.replicate 20 true }
  manager :=
    { hostmemPages := 16384
      reversedMapPfns := fun i => 4096 + i
      reversedPageCount := 16
      reversedMapPgds := fun _ => 0
      reversedMapPgdsCount := 0 }
  hostmemAmount := 64
  hostmemUsed := 0
  hostmemUsageLimit := 48 * 1048576
  monitorsCount := 0
  monitors := []

/-- How the kernel's next requests for frames come out. -/
def frameRequests (n : Nat) (k : Kernel) : FrameOutcome :=
  CoLinux.frameRequests k.manager.hostmemPages n k.host.answers k.host.out

/-- A host with `frames` frames and the blocks for `monitors` more frame tables. -/
structure Generous (frames monitors : Nat) (k : Kernel) : Prop where
  frames : frameRequests frames k = .granted
  blocks : k.host.mallocs = List.replicate (2 * monitors) true

theorem loadUnits_none {enabled : Nat → Bool} (none : ∀ u, enabled u = false)
    (load : Nat → Cmon → Step Cmon) (units : List Nat) (c : Cmon) :
    loadUnits enabled load units c = (.ok, c) := by
  induction units with
  | nil => rfl
  | cons u us ih => rw [loadUnits, none, if_neg (by simp), ih]

/-- Without devices nothing after the timer can fail. -/
theorem createDevices_plain {c : Cmon} (plain : ∀ kind u, c.monitor.config.enabled kind u = false)
    (noVideo : c.monitor.devices .video 0 = false) :
    createDevices host c = createListed c := by
  simp [createDevices, loadConfiguration, orElse, loadUnits_none (plain _), coPciSetconfig,
    createVideoBuffer, noVideo]

/-- A monitor without devices is created when the rest is granted. -/
theorem createBudget_plain {params : CreateParams} {c : Cmon} {frames monitors : Nat}
    (h : Fresh k id c) (plain : ∀ kind u, params.config.enabled kind u = false)
    (timer : host.grants .timer = true) (budget : ¬ OverBudget k (createMemorySize params k))
    (generous : Generous (frames + pageTables (createMemorySize params k)) (monitors + 1) k) :
    (createBudget host params c).1 = .ok ∧
      Generous frames monitors (createBudget host params c).2.kernel := by
  obtain ⟨least, most⟩ := createMemorySize_bounds params k
  obtain ⟨fresh, memorySize⟩ := h.counted params
  have two : k.host.mallocs.take 2 = [true, true] := by rw [generous.blocks]; rfl
  have outcome := allocPpRamMapping_outcome (w := (c.configure params).countMemory.world)
    (Nat.le_trans (Nat.le_of_eq memorySize) most)
    (Nat.le_trans (Nat.le_trans (by decide) least) (Nat.le_of_eq memorySize.symm))
  have requests (n : Nat) :
      World.requestsOutcome n (c.configure params).countMemory.world = frameRequests n k := by
    rw [← fresh.kernel] at two ⊢
    exact if_pos two
  have ok : ((c.configure params).countMemory.withWorld allocPpRamMapping).1 = .ok := by
    refine outcome.ok.mpr ((requests _).trans ?_)
    exact frameRequests_granted_of_more (memorySize.symm ▸ generous.frames)
  have exceeds : ¬ OverBudget (c.configure params).kernel
      (c.configure params).monitor.guest.memorySize := by rwa [fresh.kernel, memorySize]
  have created : createBudget host params c = createListed
      (((c.configure params).countMemory.withWorld allocPpRamMapping).2.setLedger
        ((c.configure params).countMemory.monitor.ledger.acquire .timer)) := by
    rw [createBudget, if_neg exceeds, createRam, orElse, if_pos ok, createTimer, request_granted timer]
    exact createDevices_plain plain (congrFun (congrFun fresh.devices _) _)
  rw [created]
  refine ⟨rfl, ?_, ?_⟩
  · refine (outcome.later ok frames).trans ((requests _).trans ?_)
    exact memorySize.symm ▸ generous.frames
  · refine (outcome.mallocs ok).trans ?_
    show (c.configure params).kernel.host.mallocs.drop 2 = _
    rw [fresh.kernel, generous.blocks, List.drop_replicate]
    rfl

/-- `co_monitor_create` of a monitor without devices, on a host that grants everything. -/
theorem coMonitorCreate_plain {params : CreateParams} {frames monitors : Nat}
    (reach : ReachesBudget host params) (plain : ∀ kind u, params.config.enabled kind u = false)
    (timer : host.grants .timer = true) (budget : ¬ OverBudget k (createMemorySize params k))
    (generous : Generous (frames + pageTables (createMemorySize params k)) (monitors + 1) k) :
    (coMonitorCreate host params id k).1 = .ok ∧
      Generous frames monitors (coMonitorCreate host params id k).2.kernel := by
  obtain ⟨c, fresh, created⟩ : ∃ c, Fresh k id c ∧
      coMonitorCreate host params id k = createBudget host params c := coMonitorCreate_reaches reach
  rw [created]
  exact createBudget_plain fresh plain timer budget generous

end Cmon

end CoLinux
