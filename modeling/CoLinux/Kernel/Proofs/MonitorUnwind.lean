import CoLinux.Kernel.Proofs.MonitorHolds

/-!
# The error labels of `co_monitor_create`

What each label gives back, and when that is all there was: the labels from `out_free_os_dep` on
follow the pointers of the operating system's part, which may not be set.
-/

namespace CoLinux

open Lib

namespace Cmon

/-- Nothing is left of a call: no resource is held or was given back twice, no block is counted, and
the frames of the host and the books are as before. -/
structure Undone (k : Kernel) (c : Cmon) : Prop where
  ledger : c.monitor.ledger = .empty
  table : c.monitor.guest.hasPpPfns = false
  blocks : c.monitor.guest.blocksAllocated = 0
  out : ∀ q, q ∈ c.kernel.host.out ↔ q ∈ k.host.out
  books : c.kernel.books = k.books

/-! ## The part of the operating system -/

/-- `co_conet_register_protocol` has its protocol and its mutex. -/
def Conet (host : HostAnswers) : Prop :=
  host.grants .conetProtocol = true ∧ host.grants .conetMutex = true

instance (host : HostAnswers) : Decidable (Conet host) := inferInstanceAs (Decidable (_ ∧ _))

/-- The pointers of a monitor when it comes to the budget test. -/
structure Pointers (host : HostAnswers) (c : Cmon) : Prop where
  lock : c.monitor.connectedModulesWriteLock = .valid
  mutex : c.monitor.linuxMessageQueueMutex = .valid
  osdepMutex : c.monitor.osdepMutex = if host.grants .osdepMutex then .valid else .null
  protocol : c.monitor.conetProtocol = host.grants .conetProtocol
  conetMutex : c.monitor.conetMutex =
    if ¬ host.grants .conetProtocol then .uninitialised
    else if host.grants .conetMutex then .valid else .null

variable {host : HostAnswers} {c : Cmon} {rs : List Resource}

/-- They are in the monitor, apart from its devices and its guest. -/
theorem Pointers.of_apart {c' : Cmon} (p : Pointers host c)
    (apart : c'.apartFromDevices = c.apartFromDevices) : Pointers host c' where
  lock := (congrArg (·.monitor.connectedModulesWriteLock) apart).trans p.lock
  mutex := (congrArg (·.monitor.linuxMessageQueueMutex) apart).trans p.mutex
  osdepMutex := (congrArg (·.monitor.osdepMutex) apart).trans p.osdepMutex
  protocol := (congrArg (·.monitor.conetProtocol) apart).trans p.protocol
  conetMutex := (congrArg (·.monitor.conetMutex) apart).trans p.conetMutex

theorem Pointers.setWorld (p : Pointers host c) (w : World) : Pointers host (c.setWorld w) :=
  ⟨p.lock, p.mutex, p.osdepMutex, p.protocol, p.conetMutex⟩

theorem Pointers.setLedger (p : Pointers host c) (l : Ledger Resource) :
    Pointers host (c.setLedger l) :=
  ⟨p.lock, p.mutex, p.osdepMutex, p.protocol, p.conetMutex⟩

theorem Pointers.setHostmemUsed (p : Pointers host c) (used : Nat) :
    Pointers host (c.setHostmemUsed used) :=
  ⟨p.lock, p.mutex, p.osdepMutex, p.protocol, p.conetMutex⟩

/-- What the labels from `out_free_os_dep` on release. -/
def unwindOrder (host : HostAnswers) : List Resource :=
  (if host.grants .osdepMutex then [.osdepMutex] else []) ++
    [.conetProtocol, .conetMutex, .osdep, .sharedHandle, .shared, .ioBuffer, .idleWait,
      .connectedModulesWriteLock, .linuxMessageQueueMutex, .console, .monitor]

@[simp] theorem release_ledger (r : Resource) (c : Cmon) :
    (c.release r).monitor.ledger = c.monitor.ledger.release r := rfl
@[simp] theorem release_guest (r : Resource) (c : Cmon) :
    (c.release r).monitor.guest = c.monitor.guest := rfl

theorem coConetUnregisterProtocol_valid (registered : c.monitor.conetProtocol = true)
    (valid : c.monitor.conetMutex = .valid) : c.coConetUnregisterProtocol =
      { c with monitor := { c.monitor with conetProtocol := false } }.release .conetProtocol := by
  rw [coConetUnregisterProtocol, if_pos registered, acquireConetMutex, if_pos valid]

/-- The ledger and what the labels below read. -/
structure ReleasedBy (rs : List Resource) (c c' : Cmon) : Prop where
  kernel : c'.kernel = c.kernel
  guest : c'.monitor.guest = c.monitor.guest
  ledger : c'.monitor.ledger = c.monitor.ledger.releaseAll rs
  lock : c'.monitor.connectedModulesWriteLock = c.monitor.connectedModulesWriteLock
  mutex : c'.monitor.linuxMessageQueueMutex = c.monitor.linuxMessageQueueMutex

theorem ReleasedBy.trans {c1 c2 c3 : Cmon} {xs ys : List Resource} (h : ReleasedBy xs c1 c2)
    (h' : ReleasedBy ys c2 c3) : ReleasedBy (xs ++ ys) c1 c3 where
  kernel := h'.kernel.trans h.kernel
  guest := h'.guest.trans h.guest
  ledger := by rw [h'.ledger, h.ledger, Ledger.releaseAll, Ledger.releaseAll, Ledger.releaseAll,
    List.foldl_append]
  lock := h'.lock.trans h.lock
  mutex := h'.mutex.trans h.mutex

theorem releasedBy (r : Resource) (c : Cmon) : ReleasedBy [r] c (c.release r) :=
  ⟨rfl, rfl, rfl, rfl, rfl⟩

theorem osdepMutex_releasedBy (p : Pointers host c) :
    ReleasedBy (if host.grants .osdepMutex then [.osdepMutex] else []) c
      (c.releasePointer c.monitor.osdepMutex .osdepMutex) := by
  rw [p.osdepMutex]
  split
  · exact releasedBy _ c
  · exact ⟨rfl, rfl, rfl, rfl, rfl⟩

theorem coConetUnregisterProtocol_releasedBy (registered : c.monitor.conetProtocol = true)
    (valid : c.monitor.conetMutex = .valid) :
    ReleasedBy [.conetProtocol, .conetMutex] c
      (c.coConetUnregisterProtocol.releasePointer c.coConetUnregisterProtocol.monitor.conetMutex
        .conetMutex) := by
  rw [coConetUnregisterProtocol_valid registered valid]
  show ReleasedBy _ c (releasePointer c.monitor.conetMutex _ _)
  rw [valid]
  exact ⟨rfl, rfl, rfl, rfl, rfl⟩

theorem releasePointer_conet (p : Pointer) (r : Resource) (c : Cmon) :
    (c.releasePointer p r).monitor.conetProtocol = c.monitor.conetProtocol ∧
      (c.releasePointer p r).monitor.conetMutex = c.monitor.conetMutex := by
  cases p with
  | null => exact ⟨rfl, rfl⟩
  | valid => exact ⟨rfl, rfl⟩
  | uninitialised => exact ⟨rfl, rfl⟩

theorem coMonitorOsExit_releasedBy (conet : Conet host) (p : Pointers host c) :
    ReleasedBy ((if host.grants .osdepMutex then [.osdepMutex] else []) ++
      [.conetProtocol, .conetMutex, .osdep]) c c.coMonitorOsExit := by
  have valid : c.monitor.conetMutex = .valid := by
    rw [p.conetMutex, conet.1, conet.2]
    rfl
  have kept := releasePointer_conet c.monitor.osdepMutex .osdepMutex c
  have first := osdepMutex_releasedBy p
  have second := coConetUnregisterProtocol_releasedBy
    (kept.1.trans (p.protocol.trans conet.1)) (kept.2.trans valid)
  exact first.trans (second.trans (releasedBy .osdep _))

/-! ## The labels below it -/

theorem outFreeConsole_releasedBy (c : Cmon) : ReleasedBy [.console, .monitor] c c.outFreeConsole :=
  (releasedBy .console c).trans (releasedBy .monitor _)

theorem outFreeMutex1_releasedBy (mutex : c.monitor.linuxMessageQueueMutex = .valid) :
    ReleasedBy [.linuxMessageQueueMutex, .console, .monitor] c c.outFreeMutex1 := by
  rw [outFreeMutex1, mutex]
  exact (releasedBy .linuxMessageQueueMutex c).trans (outFreeConsole_releasedBy _)

theorem outFreeMutex2_releasedBy (lock : c.monitor.connectedModulesWriteLock = .valid)
    (mutex : c.monitor.linuxMessageQueueMutex = .valid) :
    ReleasedBy [.connectedModulesWriteLock, .linuxMessageQueueMutex, .console, .monitor] c
      c.outFreeMutex2 := by
  rw [outFreeMutex2, lock]
  refine (releasedBy .connectedModulesWriteLock c).trans (outFreeMutex1_releasedBy ?_)
  exact mutex

theorem outFreeWait_releasedBy (lock : c.monitor.connectedModulesWriteLock = .valid)
    (mutex : c.monitor.linuxMessageQueueMutex = .valid) :
    ReleasedBy [.idleWait, .connectedModulesWriteLock, .linuxMessageQueueMutex, .console, .monitor]
      c c.outFreeWait :=
  (releasedBy .idleWait c).trans (@outFreeMutex2_releasedBy (c.release .idleWait) lock mutex)

theorem outFreeBuffer_releasedBy (lock : c.monitor.connectedModulesWriteLock = .valid)
    (mutex : c.monitor.linuxMessageQueueMutex = .valid) :
    ReleasedBy [.ioBuffer, .idleWait, .connectedModulesWriteLock, .linuxMessageQueueMutex, .console,
      .monitor] c c.outFreeBuffer :=
  (releasedBy .ioBuffer c).trans (@outFreeWait_releasedBy (c.release .ioBuffer) lock mutex)

theorem outFreeSharedPage_releasedBy (lock : c.monitor.connectedModulesWriteLock = .valid)
    (mutex : c.monitor.linuxMessageQueueMutex = .valid) :
    ReleasedBy [.sharedHandle, .shared, .ioBuffer, .idleWait, .connectedModulesWriteLock,
      .linuxMessageQueueMutex, .console, .monitor] c c.outFreeSharedPage :=
  ((releasedBy .sharedHandle c).trans (releasedBy .shared _)).trans
    (@outFreeBuffer_releasedBy c.freeSharedPage lock mutex)

theorem outFreeOsDep_releasedBy (conet : Conet host) (p : Pointers host c) :
    ReleasedBy (unwindOrder host) c c.outFreeOsDep := by
  have exit := coMonitorOsExit_releasedBy conet p
  have rest := @outFreeSharedPage_releasedBy c.coMonitorOsExit (exit.lock.trans p.lock)
    (exit.mutex.trans p.mutex)
  have all := exit.trans rest
  rwa [List.append_assoc] at all

/-! ## Without the protocol or its mutex -/

/-- Something was used or given back that was not held. -/
def Faulty (c : Cmon) : Prop := c.monitor.ledger.faults ≠ []

theorem Faulty.release (h : c.Faulty) (r : Resource) : (c.release r).Faulty :=
  Ledger.faults_release _ r h

theorem faulty_fault (r : Resource) (c : Cmon) : (c.fault r).Faulty := List.cons_ne_nil _ _

theorem Faulty.releasePointer (h : c.Faulty) (p : Pointer) (r : Resource) :
    (c.releasePointer p r).Faulty := by
  cases p with
  | null => exact h
  | valid => exact h.release r
  | uninitialised => exact faulty_fault r c

theorem Faulty.outFreeSharedPage (h : c.Faulty) : c.outFreeSharedPage.Faulty := by
  have shared := (h.release .sharedHandle).release .shared
  have wait := (shared.release .ioBuffer).release .idleWait
  exact (((wait.releasePointer _ _).releasePointer _ _).release .console).release .monitor

theorem outFreeOsDep_faulty (p : Pointers host c) (not : ¬ Conet host) : c.outFreeOsDep.Faulty := by
  apply Faulty.outFreeSharedPage
  apply Faulty.release
  have kept := releasePointer_conet c.monitor.osdepMutex .osdepMutex c
  generalize c.releasePointer c.monitor.osdepMutex .osdepMutex = c1 at kept
  have mutex := kept.2.trans p.conetMutex
  cases protocol : host.grants .conetProtocol with
  | false =>
    have unregistered : ¬ c1.monitor.conetProtocol = true := by
      rw [kept.1, p.protocol, protocol]
      exact Bool.false_ne_true
    have uninitialised : c1.monitor.conetMutex = .uninitialised := by
      rw [mutex, protocol]
      rfl
    rw [coConetUnregisterProtocol, if_neg unregistered, uninitialised]
    exact faulty_fault _ c1
  | true =>
    have refused : host.grants .conetMutex = false := by
      rw [← Bool.not_eq_true]
      exact fun granted => not ⟨protocol, granted⟩
    have registered : c1.monitor.conetProtocol = true := by rw [kept.1, p.protocol, protocol]
    have null : ¬ c1.monitor.conetMutex = .valid := by
      rw [mutex, protocol, refused]
      decide
    rw [coConetUnregisterProtocol, if_pos registered, acquireConetMutex, if_neg null]
    apply Faulty.releasePointer
    apply Faulty.release
    exact faulty_fault .conetMutex c1

/-- What is given back is all there was if and only if the protocol and its mutex are there and
nothing else is held. -/
theorem outFreeOsDep_empty_iff (p : Pointers host c)
    (held : Conet host → c.Holds (rs ++ unwindOrder host)) :
    c.outFreeOsDep.monitor.ledger = .empty ↔ Conet host ∧ rs = [] := by
  by_cases conet : Conet host
  · have released := outFreeOsDep_releasedBy conet p
    have left := (held conet).ledger.releaseAll
    rw [← released.ledger] at left
    constructor
    · intro empty
      have live := left.live
      rw [empty] at live
      exact ⟨conet, live.symm.eq_nil⟩
    · rintro ⟨-, rfl⟩
      exact left.eq_empty
  · refine iff_of_false (fun empty => ?_) fun all => conet all.1
    have faulty := outFreeOsDep_faulty p conet
    rw [Faulty, empty] at faulty
    exact faulty rfl

/-! ## What the labels leave -/

variable {k : Kernel}

theorem unwindOrder_blocks (host : HostAnswers) : (unwindOrder host).countP (·.IsBlock) = 0 := by
  unfold unwindOrder
  split <;> rfl

theorem ppBlocks_absent (table : c.monitor.guest.hasPpPfns = false) : c.world.ppBlocks = 0 := by
  have absent : ¬ c.world.monitor.hasPpPfns = true := by
    rw [show c.world.monitor.hasPpPfns = false from table]
    exact Bool.false_ne_true
  rw [World.ppBlocks, if_neg absent]

theorem outFreeOsDep_undone_iff (p : Pointers host c)
    (held : Conet host → c.Holds (rs ++ unwindOrder host))
    (table : c.monitor.guest.hasPpPfns = false) (books : c.outFreeOsDep.kernel.books = k.books) :
    Undone k c.outFreeOsDep ↔
      (Conet host ∧ rs = []) ∧ ∀ q, q ∈ c.kernel.host.out ↔ q ∈ k.host.out := by
  rw [← outFreeOsDep_empty_iff p held, ← outFreeOsDep_kernel c]
  constructor
  · exact fun undone => ⟨undone.ledger, undone.out⟩
  · rintro ⟨empty, out⟩
    obtain ⟨conet, rfl⟩ := (outFreeOsDep_empty_iff p held).mp empty
    have guest := (outFreeOsDep_releasedBy conet p).guest
    refine ⟨empty, ?_, ?_, out, books⟩
    · rw [guest]
      exact table
    · have blocks := (held conet).blocks
      rwa [List.nil_append, unwindOrder_blocks, ppBlocks_absent table, ← guest] at blocks

/-- The books are no part of what is held. -/
theorem setHostmemUsed_undone_iff (used : Nat) (p : Pointers host c)
    (held : Conet host → c.Holds (rs ++ unwindOrder host))
    (table : c.monitor.guest.hasPpPfns = false)
    (books : (c.setHostmemUsed used).outFreeOsDep.kernel.books = k.books) :
    Undone k (c.setHostmemUsed used).outFreeOsDep ↔
      (Conet host ∧ rs = []) ∧ ∀ q, q ∈ c.kernel.host.out ↔ q ∈ k.host.out :=
  outFreeOsDep_undone_iff (p.setHostmemUsed used)
    (fun conet => ⟨(held conet).ledger, (held conet).blocks⟩) table books

theorem outRevertUsedMem_undone_iff (p : Pointers host c)
    (held : Conet host → c.Holds (rs ++ unwindOrder host))
    (table : c.monitor.guest.hasPpPfns = false)
    (books : c.outRevertUsedMem.kernel.books = k.books) :
    Undone k c.outRevertUsedMem ↔
      (Conet host ∧ rs = []) ∧ ∀ q, q ∈ c.kernel.host.out ↔ q ∈ k.host.out :=
  setHostmemUsed_undone_iff _ p held table books

theorem Holds.freePp (h : c.Holds rs) : c.freePp.Holds rs := by
  have freed := freePseudoPhysicalMemory_freed c.world
  refine ⟨h.ledger, ?_⟩
  have none : c.freePp.world.ppBlocks = 0 := ppBlocks_absent freed.hasPpPfns
  have blocks := freed.blocks
  have counted : c.world.monitor.blocksAllocated = c.world.ppBlocks + rs.countP (·.IsBlock) :=
    h.blocks
  rw [none, Nat.zero_add]
  show (freePseudoPhysicalMemory c.world).monitor.blocksAllocated = _
  rw [blocks, counted, Nat.add_sub_cancel_left]

/-- The frame table is all that the monitor has of the host's frames. -/
structure OwnTable (k : Kernel) (c : Cmon) : Prop where
  has : c.monitor.guest.hasPpPfns = true
  own : OwnFrames k.host.out c.world

theorem OwnTable.of_apart {c' : Cmon} (h : OwnTable k c)
    (apart : c'.apartFromDevices = c.apartFromDevices) : OwnTable k c' where
  has := (congrArg (·.monitor.guest.hasPpPfns) apart).trans h.has
  own := by
    have table : c'.monitor.guest.ppPfns = c.monitor.guest.ppPfns :=
      congrArg (·.monitor.guest.ppPfns) apart
    refine h.own.congr (congrArg (·.kernel.host.out) apart) fun n => ?_
    simp only [World.ppPfn, world, table]

theorem outFreePp_undone_iff (p : Pointers host c)
    (held : Conet host → c.Holds (rs ++ unwindOrder host)) (table : OwnTable k c)
    (books : c.outFreePp.kernel.books = k.books) :
    Undone k c.outFreePp ↔ Conet host ∧ rs = [] := by
  have freed := freePseudoPhysicalMemory_freed c.world
  have out : ∀ q, q ∈ c.freePp.kernel.host.out ↔ q ∈ k.host.out :=
    fun q => table.own.freed table.has q
  have all := outRevertUsedMem_undone_iff (p.setWorld (freePseudoPhysicalMemory c.world))
    (fun conet => (held conet).freePp) freed.hasPpPfns books
  exact all.trans (and_iff_left out)

theorem outDestroyTimer_undone_iff (p : Pointers host c)
    (held : Conet host → c.Holds (rs ++ .timer :: unwindOrder host)) (table : OwnTable k c)
    (books : c.outDestroyTimer.kernel.books = k.books) :
    Undone k c.outDestroyTimer ↔ Conet host ∧ rs = [] :=
  outFreePp_undone_iff (p.setLedger _) (fun conet => (held conet).release id)
    ⟨table.has, table.own⟩ books

end Cmon

end CoLinux
