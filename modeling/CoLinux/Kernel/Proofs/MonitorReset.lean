import CoLinux.Kernel.Proofs.MonitorCreate

/-!
# What a reset and the destruction do to a monitor

A reset that succeeds leaves an INITIALIZED monitor with a frame table, and one that fails an
EMPTY monitor without one. The rest of the monitor is as before, the timer included.
-/

namespace CoLinux

open Lib

namespace Cmon

/-! ## Reset -/

/-- What `co_monitor_user_reset` does not change. -/
structure ResetKeeps (c c' : Cmon) : Prop where
  hostmemAmount : c'.kernel.hostmemAmount = c.kernel.hostmemAmount
  hostmemUsed : c'.kernel.hostmemUsed = c.kernel.hostmemUsed
  hostmemUsageLimit : c'.kernel.hostmemUsageLimit = c.kernel.hostmemUsageLimit
  memorySize : c'.monitor.guest.memorySize = c.monitor.guest.memorySize
  swapper : c'.monitor.guest.kernelSwapperPgDir = c.monitor.guest.kernelSwapperPgDir
  refcount : c'.monitor.refcount = c.monitor.refcount
  config : c'.monitor.config = c.monitor.config
  timerActive : c'.monitor.timerActive = c.monitor.timerActive
  archdep : c'.monitor.archdep = c.monitor.archdep
  passagePage : c'.monitor.passagePage = c.monitor.passagePage

variable {host : HostAnswers} {c : Cmon}

theorem ResetKeeps.trans {c c' c'' : Cmon} (h : ResetKeeps c c') (h' : ResetKeeps c' c'') :
    ResetKeeps c c'' :=
  ⟨h'.1.trans h.1, h'.2.trans h.2, h'.3.trans h.3, h'.4.trans h.4, h'.5.trans h.5, h'.6.trans h.6,
    h'.7.trans h.7, h'.8.trans h.8, h'.9.trans h.9, h'.10.trans h.10⟩

theorem ResetKeeps.of_apart {c c' : Cmon} (h : c'.apartFromDevices = c.apartFromDevices) :
    ResetKeeps c c' :=
  ⟨congrArg (·.kernel.hostmemAmount) h, congrArg (·.kernel.hostmemUsed) h,
    congrArg (·.kernel.hostmemUsageLimit) h, congrArg (·.monitor.guest.memorySize) h,
    congrArg (·.monitor.guest.kernelSwapperPgDir) h, congrArg (·.monitor.refcount) h,
    congrArg (·.monitor.config) h, congrArg (·.monitor.timerActive) h,
    congrArg (·.monitor.archdep) h, congrArg (·.monitor.passagePage) h⟩

/-- A call of the paging code keeps them when it keeps the guest's sizes. -/
theorem ResetKeeps.setWorld (c : Cmon) {w : World}
    (memorySize : w.monitor.memorySize = c.monitor.guest.memorySize)
    (swapper : w.monitor.kernelSwapperPgDir = c.monitor.guest.kernelSwapperPgDir) :
    ResetKeeps c (c.setWorld w) :=
  ⟨rfl, rfl, rfl, memorySize, swapper, rfl, rfl, rfl, rfl, rfl⟩

theorem freePp_keeps (c : Cmon) : ResetKeeps c c.freePp :=
  .setWorld c (freePseudoPhysicalMemory_freed c.world).memorySize
    (freePseudoPhysicalMemory_freed c.world).swapper

theorem setState_keeps (c : Cmon) (s : MonitorState) : ResetKeeps c (c.setState s) :=
  ⟨rfl, rfl, rfl, rfl, rfl, rfl, rfl, rfl, rfl, rfl⟩

theorem relist_keeps (c : Cmon) : ResetKeeps c c.relist := by
  unfold relist
  split <;> exact ⟨rfl, rfl, rfl, rfl, rfl, rfl, rfl, rfl, rfl, rfl⟩

theorem clearVideoBuffer_apart (c : Cmon) :
    c.clearVideoBuffer.apartFromDevices = c.apartFromDevices := by
  unfold clearVideoBuffer
  split <;> rfl

/-- What a reset returns. -/
structure ResetDone (c : Cmon) (r : Step Cmon) : Prop where
  keeps : ResetKeeps c r.2
  ppOk : PpOk r.2.world
  state : r.2.monitor.state = if r.1 = .ok then .initialized else .empty
  hasPpPfns : r.2.monitor.guest.hasPpPfns = true ↔ r.1 = .ok

/-- The guest's size and the frame table are in order. -/
structure GuestOk (c : Cmon) : Prop where
  small : SmallMemory c.world
  ppOk : PpOk c.world

/-- It depends on the guest only. -/
theorem GuestOk.of_guest {c c' : Cmon} (ok : GuestOk c)
    (same : c'.monitor.guest = c.monitor.guest) : GuestOk c' := by
  refine ⟨?_, ?_⟩
  · have := ok.small
    simpa only [SmallMemory, world, same] using this
  · have := ok.ppOk
    simpa only [PpOk, World.ppGroups, world, same] using this

theorem coMonitorUserReset_done (host : HostAnswers) {c : Cmon} (ok : GuestOk c) :
    ResetDone c (coMonitorUserReset host c) := by
  have freed := freePseudoPhysicalMemory_freed (c.setState .empty).world
  have start : ResetKeeps c (c.setState .empty).freePp :=
    (setState_keeps c .empty).trans (freePp_keeps _)
  have pp := allocPpRamMapping_allocated (w := (c.setState .empty).freePp.world)
    (Nat.le_trans (Nat.le_of_eq freed.memorySize) ok.small) freed.hasPpPfns (freed.ppOk ok.ppOk)
  have mapped := start.trans (.setWorld _ pp.memorySize pp.swapper)
  unfold coMonitorUserReset
  by_cases allocated : ((c.setState .empty).freePp.withWorld allocPpRamMapping).1 = .ok
  swap
  · rw [Step.andThen_of_ne allocated]
    exact ⟨mapped, pp.ppOk, (if_neg allocated).symm, pp.hasPpPfns⟩
  rw [Step.andThen_of_ok allocated]
  generalize hc1 : (withWorld allocPpRamMapping (c.setState .empty).freePp).2 = c1
  have has : c1.monitor.guest.hasPpPfns = true := by rw [← hc1]; exact pp.hasPpPfns.mpr allocated
  have state : c1.monitor.state = .empty := by rw [← hc1]; rfl
  have keeps1 : ResetKeeps c c1 := by rw [← hc1]; exact mapped
  have loaded : (loadConfiguration host c1.unregisterDevices).2.apartFromDevices =
      c1.apartFromDevices :=
    (loadConfiguration_apart host _).trans (unregisterDevices_apart c1)
  have keeps : ResetKeeps c (loadConfiguration host c1.unregisterDevices).2 :=
    keeps1.trans (.of_apart loaded)
  generalize loadConfiguration host c1.unregisterDevices = r at loaded keeps
  have has' : r.2.monitor.guest.hasPpPfns = true :=
    (congrArg (·.monitor.guest.hasPpPfns) loaded).trans has
  refine orElse_rule (P := ResetDone c) (fun _ => ?_) fun failed => ?_
  · have cleared := clearVideoBuffer_apart r.2.relist
    have listed : ResetKeeps c r.2.relist := keeps.trans (relist_keeps r.2)
    have table : r.2.relist.clearVideoBuffer.monitor.guest.hasPpPfns = true := by
      refine (congrArg (·.monitor.guest.hasPpPfns) cleared).trans ?_
      unfold relist
      split <;> exact has'
    refine ⟨(listed.trans (.of_apart cleared)).trans (setState_keeps _ _), fun none => ?_, rfl,
      iff_of_true table rfl⟩
    exact absurd (none.symm.trans table) (by simp)
  · have gone := freePseudoPhysicalMemory_freed r.2.world
    refine ⟨keeps.trans (freePp_keeps r.2), gone.ppOk fun none => ?_, ?_, ?_⟩
    · exact absurd (none.symm.trans has') (by simp)
    · rw [if_neg failed]
      exact (congrArg (·.monitor.state) loaded).trans state
    · exact iff_of_false (by simp [freePp, Cmon.setWorld, gone.hasPpPfns]) failed

/-- A reset keeps the guest in order. -/
theorem ResetDone.guestOk {r : Step Cmon} (h : ResetDone c r) (ok : GuestOk c) : GuestOk r.2 :=
  ⟨Nat.le_trans (Nat.le_of_eq h.keeps.memorySize) ok.small, h.ppOk⟩

/-! ## START -/

/-- Everything but the passage page and the ledger. -/
def apartFromPassage (c : Cmon) : Cmon where
  kernel := c.kernel
  monitor := { c.monitor with
    archdep := .null
    passagePage := .null
    ledger := .empty
    guest := { c.monitor.guest with passagePage := 0 } }

theorem releasePointer_apartFromPassage (p : Pointer) (r : Resource) (c : Cmon) :
    (c.releasePointer p r).apartFromPassage = c.apartFromPassage := by
  cases p <;> rfl

theorem passagePageFree_apart (c : Cmon) :
    c.coMonitorArchPassagePageFree.apartFromPassage = c.apartFromPassage := by
  unfold coMonitorArchPassagePageFree
  dsimp only
  rw [releasePointer_apartFromPassage]
  exact releasePointer_apartFromPassage c.monitor.archdep .archdep
    { c with monitor := { c.monitor with archdep := .null } }

theorem passagePageAlloc_apart (host : HostAnswers) (c : Cmon) :
    (c.coMonitorArchPassagePageAlloc host).2.apartFromPassage = c.apartFromPassage := by
  refine request_rule (P := fun r => r.2.apartFromPassage = c.apartFromPassage) (fun _ => rfl)
    fun _ => ?_
  refine request_rule (P := fun r => r.2.apartFromPassage = c.apartFromPassage)
    (fun _ => passagePageFree_apart _) fun _ => ?_
  dsimp only
  split
  · rfl
  · exact passagePageFree_apart _

/-- What START does not change. -/
structure StartKeeps (c c' : Cmon) : Prop where
  memorySize : c'.monitor.guest.memorySize = c.monitor.guest.memorySize
  swapper : c'.monitor.guest.kernelSwapperPgDir = c.monitor.guest.kernelSwapperPgDir
  hasPpPfns : c'.monitor.guest.hasPpPfns = c.monitor.guest.hasPpPfns
  refcount : c'.monitor.refcount = c.monitor.refcount

/-- Two monitors that differ in their passage page only. -/
theorem StartKeeps.of_apart {c c' : Cmon} (h : c'.apartFromPassage = c.apartFromPassage) :
    StartKeeps c c' ∧ c'.monitor.state = c.monitor.state ∧
      c'.monitor.timerActive = c.monitor.timerActive :=
  ⟨⟨congrArg (·.monitor.guest.memorySize) h, congrArg (·.monitor.guest.kernelSwapperPgDir) h,
    congrArg (·.monitor.guest.hasPpPfns) h, congrArg (·.monitor.refcount) h⟩,
    congrArg (·.monitor.state) h, congrArg (·.monitor.timerActive) h⟩

theorem guestAddressSpaceInit_keeps (host : HostAnswers) {c : Cmon}
    (swapper : c.monitor.guest.kernelSwapperPgDir < wordSize) :
    StartKeeps c (c.guestAddressSpaceInit host).2 ∧
      (c.guestAddressSpaceInit host).2.monitor.state = c.monitor.state ∧
      (c.guestAddressSpaceInit host).2.monitor.timerActive = c.monitor.timerActive := by
  unfold guestAddressSpaceInit
  split
  · exact ⟨⟨rfl, rfl, rfl, rfl⟩, rfl, rfl⟩
  obtain ⟨keeps, state, timer⟩ := StartKeeps.of_apart (passagePageAlloc_apart host c)
  dsimp only
  generalize c.coMonitorArchPassagePageAlloc host = passage at keeps state timer
  have grown := @guestAddressSpaceInit_grown
    (fun w => if passage.1 = .ok then (host.passagePageInit, w) else (passage.1, w))
    host.virtToPhys (fun w => by split <;> exact .refl w) passage.2.world
    (Nat.lt_of_le_of_lt (Nat.le_of_eq keeps.swapper) swapper)
  exact ⟨⟨grown.memorySize.trans keeps.memorySize, grown.swapper.trans keeps.swapper,
    grown.hasPpPfns.trans keeps.hasPpPfns, keeps.refcount⟩, state, timer⟩

/-- What START returns. -/
structure StartDone (c : Cmon) (r : Step Cmon) : Prop where
  keeps : StartKeeps c r.2
  state : r.2.monitor.state = if r.1 = .ok then .started else c.monitor.state
  timerActive : r.2.monitor.timerActive = if r.1 = .ok then true else c.monitor.timerActive

theorem start_done (host : HostAnswers) {c : Cmon} (initialized : c.monitor.state = .initialized)
    (swapper : c.monitor.guest.kernelSwapperPgDir < wordSize) : StartDone c (c.start host) := by
  obtain ⟨keeps, state, timer⟩ := guestAddressSpaceInit_keeps host swapper
  unfold start
  rw [if_neg (by simp [initialized])]
  generalize c.guestAddressSpaceInit host = r at keeps state timer
  by_cases ok : r.1 = .ok
  · rw [Step.andThen_of_ok ok]
    exact ⟨⟨keeps.1, keeps.2, keeps.3, keeps.4⟩, rfl, rfl⟩
  · rw [Step.andThen_of_ne ok]
    exact ⟨keeps, by rw [if_neg ok]; exact state, by rw [if_neg ok]; exact timer⟩

/-! ## Destruction -/

theorem passagePageFree_kernel (c : Cmon) :
    c.coMonitorArchPassagePageFree.kernel = c.kernel := by
  simp [coMonitorArchPassagePageFree]

theorem freeVideoDevice_kernel (c : Cmon) : c.freeVideoDevice.kernel = c.kernel := by
  unfold freeVideoDevice
  split <;> simp

theorem deactivateTimer_apart (c : Cmon) :
    c.deactivateTimer.kernel = c.kernel ∧ c.deactivateTimer.monitor.guest = c.monitor.guest := by
  unfold deactivateTimer
  split <;> exact ⟨rfl, rfl⟩

/-- The destruction of a monitor gives its memory back. -/
theorem coMonitorDestroy_books (userContext : Bool) (c : Cmon) :
    (c.coMonitorDestroy userContext).kernel.books =
      c.kernel.books.reverted c.monitor.guest.memorySize := by
  unfold coMonitorDestroy
  simp only [release_kernel, freeVideoDevice_kernel, passagePageFree_kernel, releasePointer_kernel,
    coMonitorOsExit_kernel, freeSharedPage]
  generalize hc' : (if userContext then c.deactivateTimer else _) = c'
  have kernel : c'.kernel = c.kernel := by
    rw [← hc']
    split <;> exact (deactivateTimer_apart c).1
  have size : c'.monitor.guest.memorySize = c.monitor.guest.memorySize := by
    rw [← hc']
    split <;> exact congrArg CoMonitor.memorySize (deactivateTimer_apart c).2
  have apart := unregisterDevices_apart c'
  have kernel' := (kernel_of_apart apart).trans kernel
  have size' := (memorySize_of_apart apart).trans size
  generalize c'.unregisterDevices = d at kernel' size'
  have kernel'' : d.freePp.kernel.books = c.kernel.books := by rw [freePp_books, kernel']
  have size'' := (freePp_memorySize d).trans size'
  rw [← kernel'', ← size'']
  rfl

@[simp] theorem setRefcount_kernel (n : Nat) (c : Cmon) : (c.setRefcount n).kernel = c.kernel := rfl
@[simp] theorem setRefcount_guest (n : Nat) (c : Cmon) :
    (c.setRefcount n).monitor.guest = c.monitor.guest := rfl
@[simp] theorem release_refcount (r : Resource) (c : Cmon) :
    (c.release r).monitor.refcount = c.monitor.refcount := rfl
@[simp] theorem setHostmemUsed_refcount (n : Nat) (c : Cmon) :
    (c.setHostmemUsed n).monitor.refcount = c.monitor.refcount := rfl
@[simp] theorem setWorld_refcount (w : World) (c : Cmon) :
    (c.setWorld w).monitor.refcount = c.monitor.refcount := rfl

@[simp] theorem releasePointer_refcount (p : Pointer) (r : Resource) (c : Cmon) :
    (c.releasePointer p r).monitor.refcount = c.monitor.refcount := by
  cases p <;> rfl

@[simp] theorem acquireConetMutex_refcount (c : Cmon) :
    c.acquireConetMutex.monitor.refcount = c.monitor.refcount := by
  unfold acquireConetMutex
  split <;> rfl

@[simp] theorem coMonitorOsExit_refcount (c : Cmon) :
    c.coMonitorOsExit.monitor.refcount = c.monitor.refcount := by
  unfold coMonitorOsExit coConetUnregisterProtocol
  dsimp only
  split <;> simp

theorem passagePageFree_refcount (c : Cmon) :
    c.coMonitorArchPassagePageFree.monitor.refcount = c.monitor.refcount := by
  simp [coMonitorArchPassagePageFree]

theorem freeVideoDevice_refcount (c : Cmon) :
    c.freeVideoDevice.monitor.refcount = c.monitor.refcount := by
  unfold freeVideoDevice
  split
  · exact releasePointer_refcount _ _ c
  · rfl

theorem deactivateTimer_refcount (c : Cmon) :
    c.deactivateTimer.monitor.refcount = c.monitor.refcount := by
  unfold deactivateTimer
  split <;> rfl

theorem coMonitorDestroy_refcount (userContext : Bool) (c : Cmon) :
    (c.coMonitorDestroy userContext).monitor.refcount = c.monitor.refcount := by
  have units (c : Cmon) : c.unregisterDevices.monitor.refcount = c.monitor.refcount :=
    (ResetKeeps.of_apart (unregisterDevices_apart c)).refcount
  unfold coMonitorDestroy
  simp only [release_refcount, freeVideoDevice_refcount, passagePageFree_refcount,
    releasePointer_refcount, coMonitorOsExit_refcount, freeSharedPage, setHostmemUsed_refcount,
    freePp, setWorld_refcount, units]
  split <;> exact deactivateTimer_refcount c

/-! ## Dropping a reference -/

/-- What `co_monitor_refdown` leaves alone unless it destroys the monitor. -/
structure RefdownKeeps (c c' : Cmon) : Prop where
  hostmemUsed : c'.kernel.hostmemUsed = c.kernel.hostmemUsed
  hostmemUsageLimit : c'.kernel.hostmemUsageLimit = c.kernel.hostmemUsageLimit
  guest : c'.monitor.guest = c.monitor.guest
  state : c'.monitor.state = c.monitor.state
  timerActive : c'.monitor.timerActive = c.monitor.timerActive

theorem unlist_keeps (c : Cmon) :
    RefdownKeeps c c.unlist ∧ c.unlist.monitor.refcount = c.monitor.refcount := by
  unfold unlist
  split <;> exact ⟨⟨rfl, rfl, rfl, rfl, rfl⟩, rfl⟩

/-- The last reference destroys the monitor, and any other one only counts. -/
theorem coMonitorRefdown_cases (monitorOwner : Bool) {c : Cmon} (live : c.monitor.refcount ≠ 0) :
    let r := c.coMonitorRefdown monitorOwner
    r.2.monitor.refcount = c.monitor.refcount - 1 ∧
    r.2.kernel.hostmemUsageLimit = c.kernel.hostmemUsageLimit ∧
    (r.2.monitor.refcount = 0 ∧ r.2.kernel.hostmemUsed =
        (c.kernel.hostmemUsed + wordSize - c.monitor.guest.memorySize) % wordSize ∨
      r.2.monitor.refcount ≠ 0 ∧ RefdownKeeps c r.2) := by
  unfold coMonitorRefdown
  rw [if_neg live]
  dsimp only
  generalize hd : (if monitorOwner then c.unlist else c) = d
  have same : RefdownKeeps c d ∧ d.monitor.refcount = c.monitor.refcount := by
    rw [← hd]
    split
    · exact unlist_keeps c
    · exact ⟨⟨rfl, rfl, rfl, rfl, rfl⟩, rfl⟩
  obtain ⟨keeps, count⟩ := same
  by_cases last : (d.setRefcount (d.monitor.refcount - 1)).monitor.refcount = 0
  · rw [if_pos last]
    have books := coMonitorDestroy_books monitorOwner (d.setRefcount (d.monitor.refcount - 1))
    have refcount := coMonitorDestroy_refcount monitorOwner
      (d.setRefcount (d.monitor.refcount - 1))
    generalize coMonitorDestroy monitorOwner _ = e at books refcount
    refine ⟨?_, (congrArg Books.hostmemUsageLimit books).trans keeps.hostmemUsageLimit,
      .inl ⟨refcount.trans last, ?_⟩⟩
    · rw [refcount, ← count]
      rfl
    · have result := congrArg Books.hostmemUsed books
      rw [reverted_hostmemUsed, setRefcount_guest, keeps.guest, setRefcount_kernel,
        books_hostmemUsed, books_hostmemUsed, keeps.hostmemUsed] at result
      exact result
  · rw [if_neg last]
    refine ⟨by rw [← count]; rfl, keeps.hostmemUsageLimit, .inr ⟨last, ?_⟩⟩
    exact ⟨keeps.1, keeps.2, keeps.3, keeps.4, keeps.5⟩

end Cmon

end CoLinux
