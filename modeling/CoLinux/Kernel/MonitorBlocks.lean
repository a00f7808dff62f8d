import CoLinux.Kernel.MonitorAtomic
import CoLinux.Kernel.MonitorStates

/-!
# The blocks of a monitor over its life

A monitor is created, loaded, started and reset any number of times, and destroyed. Without video
devices, and if no START meets the passage page of an earlier one, its blocks are balanced in every
state.
-/

namespace CoLinux

open Lib

namespace Cmon

/-! ## Lives -/

/-- A request that allocates. Without a guest loaded, START does not get to the passage page. -/
inductive LifeOp where
  | loadSection (address size : Nat) (data : Option (Nat → UInt8))
  | loadInitrd (size : Nat) (data : Nat → UInt8)
  | start (host : HostAnswers)
  | reset (host : HostAnswers)

def LifeOp.step : LifeOp → Cmon → Cmon
  | .loadSection address size data, c =>
    (c.loadSection (address % wordSize) (size % wordSize) data).2
  | .loadInitrd size data, c => (c.loadInitrd (size % wordSize) data).2
  | .start host, c => (c.start host).2
  | .reset host, c => (c.coMonitorUserReset host).2

/-- A START does not come to the allocation of the passage page while an earlier one is there. -/
def LifeOp.Fits (c : Cmon) : LifeOp → Prop
  | .start _ => c.monitor.state = .initialized →
      (∀ rc, coMonitorGetPfn c.monitor.guest.kernelSwapperPgDir c.world ≠ .error rc) →
        c.monitor.passagePage = .null
  | .loadSection _ _ _ | .loadInitrd _ _ | .reset _ => True

/-- The passage page and its data are allocated once at most, and the pointer to the video buffer
was not followed without one. -/
structure Balanced (c : Cmon) : Prop where
  archdep : c.monitor.ledger.live.count .archdep ≤ 1
  passagePage : c.monitor.ledger.live.count .passagePage ≤ 1
  videoBuffer : Resource.videoBuffer ∉ c.monitor.ledger.faults

/-- Each block was given back once. -/
structure Emptied (c : Cmon) : Prop where
  counter : c.monitor.guest.blocksAllocated = 0
  table : c.monitor.guest.hasPpPfns = false
  live : ∀ r ∈ c.monitor.ledger.live, ¬ r.IsBlock
  faults : ∀ r ∈ c.monitor.ledger.faults, ¬ r.IsBlock ∧ r ≠ .videoBuffer

/-- In every state of a life the monitor is balanced, and a destruction there empties it. -/
def LifeSound (c : Cmon) (ops : List LifeOp) : Prop :=
  ∀ p, p <+: ops → Balanced (run LifeOp.step p c) ∧
    ∀ userContext, Emptied ((run LifeOp.step p c).coMonitorDestroy userContext)

/-! ## The invariant -/

variable {host : HostAnswers} {c : Cmon} {t : DeviceKind → List Nat} {rs base : List Resource}
  {config : CoConfig}

/-- What a START acquires. -/
def passageHeld : Pointer → List Resource
  | .valid => [.passagePage, .archdep]
  | _ => []

/-- The tables without video devices, and what else the monitor holds. -/
structure Furnished (c : Cmon) (rs : List Resource) (t : DeviceKind → List Nat) : Prop where
  inside : ∀ kind, t kind ⊆ kind.units
  noVideo : t .video = []
  tables : c.Tables t rs

structure LifeInv (config : CoConfig) (base : List Resource) (c : Cmon) : Prop where
  config : c.monitor.config = config
  guestOk : GuestOk c
  swapper : c.monitor.guest.kernelSwapperPgDir < wordSize
  table : c.monitor.state = .initialized → c.monitor.guest.hasPpPfns = true
  archdep : c.monitor.archdep = c.monitor.passagePage
  passagePage : c.monitor.passagePage ≠ .uninitialised
  furnished : ∃ t, Furnished c (passageHeld c.monitor.passagePage ++ base) t

theorem Tables.freePp (h : c.Tables t rs) : c.freePp.Tables t rs :=
  ⟨fun kind => ⟨(h.units kind).mem, (h.units kind).nodup⟩, h.holds.freePp⟩

theorem Tables.unregister (h : c.Tables t rs) (inside : ∀ kind, t kind ⊆ kind.units)
    (noVideo : t .video = []) : c.unregisterDevices.Tables (fun _ => []) rs := by
  have scsi := h.free (frees_block .scsi fun _ => trivial) (inside .scsi)
  have inside1 := update_nil_subset inside .scsi
  have cobd := scsi.free (frees_block .block fun _ => trivial) (inside1 .block)
  have inside2 := update_nil_subset inside1 .block
  have files := cobd.free frees_filesystem (inside2 .filesystem)
  refine files.congr_units fun kind => ?_
  cases kind with
  | video => exact noVideo
  | scsi | block | filesystem => rfl

/-! ## Reset -/

theorem leftUnits_furnished (host : HostAnswers) (noVideo : wanted config .video = []) :
    (∀ kind, leftUnits host config kind ⊆ kind.units) ∧ leftUnits host config .video = [] := by
  have video : GrantsUnits host config .video := by
    rw [GrantsUnits, noVideo]
    exact fun u mem => absurd mem List.not_mem_nil
  unfold leftUnits
  split
  · exact ⟨fun _ => List.nil_subset _, rfl⟩
  · exact ⟨fun _ _ mem => List.mem_of_mem_filter mem, noVideo⟩

theorem Tables.finishReset (h : c.Tables t rs) (absent : ¬ c.monitor.devices .video 0 = true) :
    (c.relist.clearVideoBuffer.setState .initialized).Tables t rs := by
  have relisted : c.relist.Tables t rs := by
    unfold relist
    split
    · exact h
    · exact h.congr rfl rfl rfl rfl
  have same : c.relist.monitor.devices = c.monitor.devices := by
    unfold relist
    split <;> rfl
  have uncleared : c.relist.clearVideoBuffer = c.relist := by
    rw [clearVideoBuffer, same]
    exact if_neg fun both => absent both.1
  rw [uncleared]
  exact relisted.congr rfl rfl rfl rfl

theorem reset_furnished (ok : GuestOk c) (h : Furnished c rs t)
    (noVideo : wanted c.monitor.config .video = []) (host : HostAnswers) :
    ∃ t', Furnished (c.coMonitorUserReset host).2 rs t' := by
  have freed := freePseudoPhysicalMemory_freed (c.setState .empty).world
  have pp := allocPpRamMapping_allocated (w := (c.setState .empty).freePp.world)
    (Nat.le_trans (Nat.le_of_eq freed.memorySize) ok.small) freed.hasPpPfns (freed.ppOk ok.ppOk)
  have empty : (c.setState .empty).Tables t rs := h.tables.congr rfl rfl rfl rfl
  have mapped := empty.freePp.setWorld freed.hasPpPfns pp.blocks
  unfold coMonitorUserReset
  by_cases allocated : ((c.setState .empty).freePp.withWorld allocPpRamMapping).1 = .ok
  swap
  · rw [Step.andThen_of_ne allocated]
    exact ⟨t, h.inside, h.noVideo, mapped⟩
  rw [Step.andThen_of_ok allocated]
  have mapped : ((c.setState .empty).freePp.withWorld allocPpRamMapping).2.Tables t rs := mapped
  generalize hd : ((c.setState .empty).freePp.withWorld allocPpRamMapping).2 = d at mapped
  have config : d.monitor.config = c.monitor.config := by
    rw [← hd]
    rfl
  have same : d.unregisterDevices.monitor.config = d.monitor.config :=
    (ResetKeeps.of_apart (unregisterDevices_apart d)).config
  obtain ⟨-, loaded⟩ := loadConfiguration_tables host (mapped.unregister h.inside h.noVideo)
  rw [same, config] at loaded
  obtain ⟨inside, none⟩ := leftUnits_furnished host noVideo
  generalize loadConfiguration host d.unregisterDevices = r at loaded ⊢
  refine orElse_rule (P := fun r => ∃ t', Furnished r.2 rs t') (fun _ => ?_) fun _ => ?_
  · have absent : ¬ r.2.monitor.devices .video 0 = true := by
      rw [(loaded.units .video).mem, none]
      exact List.not_mem_nil
    exact ⟨_, inside, none, loaded.finishReset absent⟩
  · exact ⟨_, inside, none, loaded.freePp⟩

theorem reset_inv (inv : LifeInv config base c) (noVideo : wanted config .video = [])
    (host : HostAnswers) : LifeInv config base (c.coMonitorUserReset host).2 := by
  have done := coMonitorUserReset_done host inv.guestOk
  constructor
  · exact done.keeps.config.trans inv.config
  · exact done.guestOk inv.guestOk
  · rw [done.keeps.swapper]
    exact inv.swapper
  · intro initialized
    rw [done.hasPpPfns]
    by_contra failed
    rw [done.state, if_neg failed] at initialized
    cases initialized
  · rw [done.keeps.archdep, done.keeps.passagePage]
    exact inv.archdep
  · rw [done.keeps.passagePage]
    exact inv.passagePage
  · obtain ⟨t, furnished⟩ := inv.furnished
    rw [done.keeps.passagePage]
    exact reset_furnished inv.guestOk furnished (inv.config ▸ noVideo) host

/-! ## Loading -/

/-- A frame table that has grown. -/
theorem Tables.grown (h : c.Tables t rs) (has : c.monitor.guest.hasPpPfns = true) {w : World}
    (grown : Grown c.world w) : (c.setWorld w).Tables t rs := by
  refine ⟨fun kind => ⟨(h.units kind).mem, (h.units kind).nodup⟩, h.holds.ledger, ?_⟩
  have same : w.monitor.blocksAllocated + c.world.ppBlocks =
      c.monitor.guest.blocksAllocated + w.ppBlocks := grown.ppBlocks has
  have blocks := h.holds.blocks
  show w.monitor.blocksAllocated = w.ppBlocks + _
  omega

theorem LifeInv.grown (inv : LifeInv config base c) (has : c.monitor.guest.hasPpPfns = true)
    {w : World} (grown : Grown c.world w) : LifeInv config base (c.setWorld w) where
  config := inv.config
  guestOk := by
    have has' : w.monitor.hasPpPfns = true := grown.hasPpPfns.trans has
    refine ⟨?_, fun none => absurd (none.symm.trans has') nofun⟩
    exact Nat.le_trans (Nat.le_of_eq grown.memorySize) inv.guestOk.small
  swapper := Nat.lt_of_le_of_lt (Nat.le_of_eq grown.swapper) inv.swapper
  table := fun _ => grown.hasPpPfns.trans has
  archdep := inv.archdep
  passagePage := inv.passagePage
  furnished := by
    obtain ⟨t, furnished⟩ := inv.furnished
    exact ⟨t, furnished.inside, furnished.noVideo, furnished.tables.grown has grown⟩

theorem loadSection_inv (inv : LifeInv config base c) {address : Nat} (low : address < wordSize)
    (size : Nat) (data : Option (Nat → UInt8)) :
    LifeInv config base (c.loadSection address size data).2 := by
  unfold loadSection
  split
  · exact inv
  · rename_i initialized
    have has := inv.table (not_not.mp initialized)
    exact inv.grown has (coMonitorCopyRegion_grown low size data c.world)

/-- The note of where the initrd is. -/
theorem LifeInv.noteInitrd (inv : LifeInv config base c) (address size : Nat) :
    LifeInv config base
      { c with monitor := { c.monitor with initrdAddress := address, initrdSize := size } } where
  config := inv.config
  guestOk := inv.guestOk.of_guest rfl
  swapper := inv.swapper
  table := inv.table
  archdep := inv.archdep
  passagePage := inv.passagePage
  furnished := by
    obtain ⟨t, furnished⟩ := inv.furnished
    exact ⟨t, furnished.inside, furnished.noVideo, furnished.tables.congr rfl rfl rfl rfl⟩

theorem loadInitrd_inv (inv : LifeInv config base c) (size : Nat) (data : Nat → UInt8) :
    LifeInv config base (c.loadInitrd size data).2 := by
  have low : initrdAddress c.monitor.guest.memorySize size < wordSize := Nat.mod_lt _ (by decide)
  unfold loadInitrd
  generalize initrdAddress c.monitor.guest.memorySize size = address at low
  generalize (c.monitor.coreEnd + 0x100000) % wordSize = limit
  dsimp only
  split
  · exact inv
  rename_i initialized
  split
  · exact inv
  have copied := inv.grown (inv.table (not_not.mp initialized))
    (coMonitorCopyRegion_grown low size (some data) c.world)
  by_cases ok : (c.withWorld (coMonitorCopyRegion address size (some data))).1 = .ok
  · rw [Step.andThen_of_ok ok]
    exact copied.noteInitrd address size
  · rw [Step.andThen_of_ne ok]
    exact copied

/-! ## Start -/

/-- The passage page and its data are both there or both missing. -/
structure PassageOk (c : Cmon) (base : List Resource) (t : DeviceKind → List Nat) : Prop where
  archdep : c.monitor.archdep = c.monitor.passagePage
  passagePage : c.monitor.passagePage ≠ .uninitialised
  tables : c.Tables t (passageHeld c.monitor.passagePage ++ base)

theorem passageOk_none (archdep : c.monitor.archdep = .null)
    (passagePage : c.monitor.passagePage = .null) (h : c.Tables t base) : PassageOk c base t where
  archdep := archdep.trans passagePage.symm
  passagePage := by
    rw [passagePage]
    nofun
  tables := by
    rw [passagePage]
    exact h

theorem passageOk_both (archdep : c.monitor.archdep = .valid)
    (passagePage : c.monitor.passagePage = .valid)
    (h : c.Tables t (.passagePage :: .archdep :: base)) : PassageOk c base t where
  archdep := archdep.trans passagePage.symm
  passagePage := by
    rw [passagePage]
    nofun
  tables := by
    rw [passagePage]
    exact h

/-- An allocation that meets none. -/
theorem passagePageAlloc_ok (h : c.Tables t base)
    (passagePage : c.monitor.passagePage = .null) (host : HostAnswers) :
    PassageOk (c.coMonitorArchPassagePageAlloc host).2 base t := by
  unfold coMonitorArchPassagePageAlloc
  refine request_rule (P := fun r => PassageOk r.2 base t) (fun _ => ?_) fun _ => ?_
  · exact passageOk_none rfl passagePage (h.congr rfl rfl rfl rfl)
  refine request_rule (P := fun r => PassageOk r.2 base t) (fun _ => ?_) fun _ => ?_
  · refine passageOk_none rfl rfl (h.congr rfl ?_ rfl rfl)
    exact c.monitor.ledger.release_acquire .archdep
  dsimp only
  split
  · have both := (h.acquire (r := .archdep) id).acquire (r := .passagePage) id
    exact passageOk_both rfl rfl (both.congr rfl rfl rfl rfl)
  · refine passageOk_none rfl rfl (h.congr rfl ?_ rfl rfl)
    show ((((c.monitor.ledger.acquire .archdep).acquire .passagePage).release .archdep).release
      .passagePage) = _
    have other : Resource.archdep ≠ .passagePage := nofun
    rw [Ledger.release_acquire_ne _ other, Ledger.release_acquire, Ledger.release_acquire]

theorem guestAddressSpaceInit_ok (has : c.monitor.guest.hasPpPfns = true)
    (swapper : c.monitor.guest.kernelSwapperPgDir < wordSize) (h : PassageOk c base t)
    (fits : (∀ rc, coMonitorGetPfn c.monitor.guest.kernelSwapperPgDir c.world ≠ .error rc) →
      c.monitor.passagePage = .null) (host : HostAnswers) :
    PassageOk (c.guestAddressSpaceInit host).2 base t := by
  unfold guestAddressSpaceInit
  split
  · exact h
  · rename_i pfn lookup
    have null := fits fun rc failed => by
      rw [lookup] at failed
      cases failed
    have tables := h.tables
    rw [null] at tables
    have passage := passagePageAlloc_ok tables null host
    have keeps := (StartKeeps.of_apart (passagePageAlloc_apart host c)).1
    dsimp only
    generalize c.coMonitorArchPassagePageAlloc host = r at passage keeps
    have grown := @guestAddressSpaceInit_grown
      (fun w => if r.1 = .ok then (host.passagePageInit, w) else (r.1, w))
      host.virtToPhys (fun w => by split <;> exact .refl w) r.2.world
      (Nat.lt_of_le_of_lt (Nat.le_of_eq keeps.swapper) swapper)
    exact ⟨passage.archdep, passage.passagePage, passage.tables.grown (keeps.hasPpPfns.trans has)
      grown⟩

theorem guestAddressSpaceInit_config (host : HostAnswers) (c : Cmon) :
    (c.guestAddressSpaceInit host).2.monitor.config = c.monitor.config := by
  unfold guestAddressSpaceInit
  split
  · rfl
  · exact congrArg (·.monitor.config) (passagePageAlloc_apart host c)

theorem start_inv (inv : LifeInv config base c) (host : HostAnswers)
    (fits : (LifeOp.start host).Fits c) : LifeInv config base (c.start host).2 := by
  by_cases initialized : c.monitor.state = .initialized
  swap
  · rw [start, if_pos initialized]
    exact inv
  have done := start_done host initialized inv.swapper
  have has := inv.table initialized
  have has' := done.keeps.hasPpPfns.trans has
  obtain ⟨t, furnished⟩ := inv.furnished
  have passage := guestAddressSpaceInit_ok has inv.swapper
    ⟨inv.archdep, inv.passagePage, furnished.tables⟩ (fits initialized) host
  have settings := (guestAddressSpaceInit_config host c).trans inv.config
  have kept : PassageOk (c.start host).2 base t ∧ (c.start host).2.monitor.config = config := by
    rw [start, if_neg (not_not.mpr initialized)]
    generalize c.guestAddressSpaceInit host = r at passage settings
    by_cases ok : r.1 = .ok
    · rw [Step.andThen_of_ok ok]
      exact ⟨⟨passage.archdep, passage.passagePage, passage.tables.congr rfl rfl rfl rfl⟩, settings⟩
    · rw [Step.andThen_of_ne ok]
      exact ⟨passage, settings⟩
  constructor
  · exact kept.2
  · refine ⟨?_, fun none => absurd (none.symm.trans has') nofun⟩
    exact Nat.le_trans (Nat.le_of_eq done.keeps.memorySize) inv.guestOk.small
  · rw [done.keeps.swapper]
    exact inv.swapper
  · exact fun _ => has'
  · exact kept.1.archdep
  · exact kept.1.passagePage
  · exact ⟨t, furnished.inside, furnished.noVideo, kept.1.tables⟩

theorem step_inv (noVideo : wanted config .video = []) (c : Cmon) (op : LifeOp)
    (inv : LifeInv config base c) (fits : op.Fits c) : LifeInv config base (op.step c) := by
  cases op with
  | loadSection address size data =>
    exact loadSection_inv inv (Nat.mod_lt _ (by decide)) (size % wordSize) data
  | loadInitrd size data => exact loadInitrd_inv inv (size % wordSize) data
  | start host => exact start_inv inv host fits
  | reset host => exact reset_inv inv noVideo host

/-! ## What the invariant says -/

/-- What else a monitor holds that has no devices. -/
def PlainBase (base : List Resource) : Prop :=
  ∀ r ∈ base, ¬ r.IsBlock ∧ r ≠ .videoBuffer ∧ r ≠ .archdep ∧ r ≠ .passagePage

theorem mem_heldAll {r : Resource} (mem : r ∈ heldAll t) :
    ∃ kind, ∃ u ∈ t kind, r ∈ kind.resources u := by
  simp only [heldAll, held, List.mem_append, List.mem_flatMap] at mem
  rcases mem with ⟨u, hu, mem⟩ | ⟨u, hu, mem⟩ | ⟨u, hu, mem⟩ | ⟨u, hu, mem⟩
  · exact ⟨.scsi, u, hu, mem⟩
  · exact ⟨.block, u, hu, mem⟩
  · exact ⟨.filesystem, u, hu, mem⟩
  · exact ⟨.video, u, hu, mem⟩

/-- Devices are no passage pages. -/
theorem not_mem_heldAll {r : Resource} (device : ∀ kind u, r ∉ DeviceKind.resources u kind) :
    r ∉ heldAll t := by
  intro mem
  obtain ⟨kind, u, -, mem⟩ := mem_heldAll mem
  exact device kind u mem

theorem passageHeld_nodup (p : Pointer) : (passageHeld p).Nodup := by
  cases p <;> decide

theorem LifeInv.count_le (inv : LifeInv config base c) {r : Resource}
    (device : ∀ kind u, r ∉ DeviceKind.resources u kind) (other : r ∉ base) :
    c.monitor.ledger.live.count r ≤ 1 := by
  obtain ⟨t, furnished⟩ := inv.furnished
  rw [furnished.tables.holds.ledger.live.count_eq, List.count_append, List.count_append,
    List.count_eq_zero.mpr (not_mem_heldAll device), List.count_eq_zero.mpr other, Nat.zero_add]
  exact List.nodup_iff_count_le_one.mp (passageHeld_nodup _) r

theorem LifeInv.balanced (inv : LifeInv config base c) (plain : PlainBase base) : Balanced c where
  archdep := inv.count_le (by rintro (_ | _ | _ | _) u mem <;> simp [DeviceKind.resources] at mem)
    fun mem => (plain _ mem).2.2.1 rfl
  passagePage := inv.count_le
    (by rintro (_ | _ | _ | _) u mem <;> simp [DeviceKind.resources] at mem)
    fun mem => (plain _ mem).2.2.2 rfl
  videoBuffer := by
    obtain ⟨t, furnished⟩ := inv.furnished
    rw [furnished.tables.holds.ledger.faults]
    exact List.not_mem_nil

/-! ## Destruction -/

/-- A resource that is no block and not the video buffer. -/
def Other (r : Resource) : Prop := ¬ r.IsBlock ∧ r ≠ .videoBuffer

theorem passageHeld_other {p : Pointer} {r : Resource} (mem : r ∈ passageHeld p) : Other r := by
  cases p with
  | valid =>
    rcases List.mem_cons.mp mem with rfl | mem
    · exact ⟨id, nofun⟩
    · rw [List.mem_singleton.mp mem]
      exact ⟨id, nofun⟩
  | null | uninitialised => exact absurd mem List.not_mem_nil

/-- A monitor whose blocks are gone. -/
structure Bare (c : Cmon) : Prop where
  video : c.monitor.devices .video 0 = false
  emptied : Emptied c

theorem Bare.release (h : Bare c) {r : Resource} (other : Other r) : Bare (c.release r) := by
  refine ⟨h.video, h.emptied.counter, h.emptied.table, fun q mem => ?_, fun q mem => ?_⟩
  · rw [release_ledger, Ledger.release] at mem
    split at mem
    · exact h.emptied.live q (List.mem_of_mem_erase mem)
    · exact h.emptied.live q mem
  · rw [release_ledger, Ledger.release] at mem
    split at mem
    · exact h.emptied.faults q mem
    · rcases List.mem_cons.mp mem with rfl | mem
      · exact other
      · exact h.emptied.faults q mem

theorem Bare.fault (h : Bare c) {r : Resource} (other : Other r) : Bare (c.fault r) := by
  refine ⟨h.video, h.emptied.counter, h.emptied.table, h.emptied.live, fun q mem => ?_⟩
  rcases List.mem_cons.mp mem with rfl | mem
  · exact other
  · exact h.emptied.faults q mem

theorem Bare.releasePointer (h : Bare c) {r : Resource} (other : Other r) (p : Pointer) :
    Bare (c.releasePointer p r) := by
  cases p with
  | null => exact h
  | valid => exact h.release other
  | uninitialised => exact h.fault other

theorem Bare.setHostmemUsed (h : Bare c) (used : Nat) : Bare (c.setHostmemUsed used) :=
  ⟨h.video, h.emptied.counter, h.emptied.table, h.emptied.live, h.emptied.faults⟩

theorem Bare.unregisterProtocol (h : Bare c) : Bare c.coConetUnregisterProtocol := by
  unfold coConetUnregisterProtocol
  split
  · have locked : Bare c.acquireConetMutex := by
      unfold acquireConetMutex
      split
      · exact h
      · exact h.fault ⟨id, nofun⟩
    have deregistered : Bare { c.acquireConetMutex with monitor :=
        { c.acquireConetMutex.monitor with conetProtocol := false } } :=
      ⟨locked.video, locked.emptied.counter, locked.emptied.table, locked.emptied.live,
        locked.emptied.faults⟩
    exact deregistered.release ⟨id, nofun⟩
  · exact h

theorem Bare.osExit (h : Bare c) : Bare c.coMonitorOsExit := by
  have mutex := h.releasePointer (r := .osdepMutex) ⟨id, nofun⟩ c.monitor.osdepMutex
  exact (mutex.unregisterProtocol.releasePointer (r := .conetMutex) ⟨id, nofun⟩ _).release
    (r := .osdep) ⟨id, nofun⟩

def withoutArchdep (c : Cmon) : Cmon := { c with monitor := { c.monitor with archdep := .null } }

def withoutPassagePage (c : Cmon) : Cmon :=
  { c with monitor := { c.monitor with passagePage := .null } }

theorem Bare.passagePageFree (h : Bare c) : Bare c.coMonitorArchPassagePageFree := by
  have data : Bare c.withoutArchdep :=
    ⟨h.video, h.emptied.counter, h.emptied.table, h.emptied.live, h.emptied.faults⟩
  have freed := data.releasePointer (r := .archdep) ⟨id, nofun⟩ c.monitor.archdep
  show Bare (Cmon.releasePointer (c.withoutArchdep.releasePointer c.monitor.archdep
    .archdep).monitor.passagePage .passagePage (c.withoutArchdep.releasePointer c.monitor.archdep
      .archdep).withoutPassagePage)
  generalize c.withoutArchdep.releasePointer c.monitor.archdep .archdep = d at freed ⊢
  have page : Bare d.withoutPassagePage :=
    ⟨freed.video, freed.emptied.counter, freed.emptied.table, freed.emptied.live,
      freed.emptied.faults⟩
  exact page.releasePointer (r := .passagePage) ⟨id, nofun⟩ _

theorem Bare.freeVideoDevice (h : Bare c) : Bare c.freeVideoDevice := by
  have absent : ¬ c.monitor.devices .video 0 = true := by
    rw [h.video]
    exact Bool.false_ne_true
  rw [Cmon.freeVideoDevice, if_neg absent]
  exact h

/-- Without devices and without a frame table. -/
theorem bare_of_tables (h : c.Tables (fun _ => []) rs) (table : c.monitor.guest.hasPpPfns = false)
    (others : ∀ r ∈ rs, Other r) : Bare c where
  video := by
    rw [← Bool.not_eq_true, (h.units .video).mem]
    exact List.not_mem_nil
  emptied := by
    have live : ∀ r ∈ c.monitor.ledger.live, Other r :=
      fun r mem => others r (h.holds.ledger.live.mem_iff.mp mem)
    refine ⟨?_, table, fun r mem => (live r mem).1, ?_⟩
    · have none : rs.countP (·.IsBlock) = 0 :=
        List.countP_eq_zero.mpr fun r mem => by simpa using (others r mem).1
      have blocks := h.holds.blocks
      rw [ppBlocks_absent table, Nat.zero_add] at blocks
      exact blocks.trans none
    · rw [h.holds.ledger.faults]
      exact fun r mem => absurd mem List.not_mem_nil

/-- What `co_monitor_destroy` does after the devices and the frame table are gone. -/
def destroyRest (used : Nat) (c : Cmon) : Cmon :=
  let c := ((c.setHostmemUsed used).release .ioBuffer).freeSharedPage.coMonitorOsExit.release .timer
  let c := c.releasePointer c.monitor.connectedModulesWriteLock .connectedModulesWriteLock
  let c := c.releasePointer c.monitor.linuxMessageQueueMutex .linuxMessageQueueMutex
  (c.release .console).coMonitorArchPassagePageFree.freeVideoDevice.release .monitor

theorem Bare.destroyRest (h : Bare c) (used : Nat) : Emptied (c.destroyRest used) := by
  have buffer := (h.setHostmemUsed used).release (r := .ioBuffer) ⟨id, nofun⟩
  have handle := buffer.release (r := .sharedHandle) ⟨id, nofun⟩
  have page := handle.release (r := .shared) ⟨id, nofun⟩
  have timer := page.osExit.release (r := .timer) ⟨id, nofun⟩
  exact ((((timer.releasePointer (r := .connectedModulesWriteLock) ⟨id, nofun⟩ _).releasePointer
    (r := .linuxMessageQueueMutex) ⟨id, nofun⟩ _).release (r := .console)
      ⟨id, nofun⟩).passagePageFree.freeVideoDevice.release (r := .monitor) ⟨id, nofun⟩).emptied

/-- The monitor before its devices are freed. -/
def deactivated (userContext : Bool) (c : Cmon) : Cmon :=
  if userContext then c.deactivateTimer
  else { c.deactivateTimer with monitor :=
    { c.deactivateTimer.monitor with sharedUserAddress := false } }

theorem coMonitorDestroy_eq (userContext : Bool) (c : Cmon) : c.coMonitorDestroy userContext =
    (c.deactivated userContext).unregisterDevices.freePp.destroyRest
      (((c.deactivated userContext).unregisterDevices.freePp.kernel.hostmemUsed + wordSize -
        (c.deactivated userContext).unregisterDevices.freePp.monitor.guest.memorySize) %
          wordSize) := by
  simp only [coMonitorDestroy, destroyRest, deactivated]

theorem deactivated_same (userContext : Bool) (c : Cmon) :
    (c.deactivated userContext).monitor.devices = c.monitor.devices ∧
      (c.deactivated userContext).monitor.ledger = c.monitor.ledger ∧
        (c.deactivated userContext).monitor.guest = c.monitor.guest := by
  unfold deactivated deactivateTimer
  split <;> split <;> exact ⟨rfl, rfl, rfl⟩

theorem freePp_table (c : Cmon) : c.freePp.monitor.guest.hasPpPfns = false :=
  (freePseudoPhysicalMemory_freed c.world).hasPpPfns

theorem LifeInv.destroyed (inv : LifeInv config base c) (plain : PlainBase base)
    (userContext : Bool) : Emptied (c.coMonitorDestroy userContext) := by
  obtain ⟨t, furnished⟩ := inv.furnished
  have others : ∀ r ∈ passageHeld c.monitor.passagePage ++ base, Other r := by
    intro r mem
    rcases List.mem_append.mp mem with mem | mem
    · exact passageHeld_other mem
    · exact ⟨(plain r mem).1, (plain r mem).2.1⟩
  obtain ⟨devices, ledger, guest⟩ := deactivated_same userContext c
  rw [coMonitorDestroy_eq]
  generalize c.deactivated userContext = d at devices ledger guest ⊢
  have tables : d.Tables t (passageHeld c.monitor.passagePage ++ base) := by
    refine furnished.tables.congr devices ledger (congrArg _ guest) ?_
    have same : d.world.monitor = c.world.monitor := guest
    rw [World.ppBlocks, World.ppBlocks, World.ppGroups, World.ppGroups, same]
  have empty := (tables.unregister furnished.inside furnished.noVideo).freePp
  exact (bare_of_tables empty (freePp_table d.unregisterDevices) others).destroyRest _

/-! ## A new monitor -/

variable {k : Kernel} {params : CreateParams} {id : Nat}

/-- A step of the constructor that succeeds leaves a furnished monitor. -/
def FurnishedIfOk (base : List Resource) (r : Step Cmon) : Prop :=
  r.1 = .ok → ∃ t, Furnished r.2 base t

theorem createDevices_furnished (h : c.Tables (fun _ => []) base)
    (noVideo : wanted c.monitor.config .video = []) :
    FurnishedIfOk base (createDevices host c) := by
  obtain ⟨-, loaded⟩ := loadConfiguration_tables host h
  obtain ⟨inside, none⟩ := leftUnits_furnished host noVideo
  unfold createDevices
  generalize loadConfiguration host c = r at loaded ⊢
  refine orElse_rule (P := FurnishedIfOk base) (fun _ => ?_) fun failed ok => absurd ok failed
  have absent : ¬ r.2.monitor.devices .video 0 = true := by
    rw [(loaded.units .video).mem, none]
    exact List.not_mem_nil
  rw [createVideoBuffer, if_neg absent]
  exact fun _ => ⟨_, inside, none, loaded.congr rfl rfl rfl rfl⟩

theorem createTimer_furnished (h : c.Tables (fun _ => []) base)
    (noVideo : wanted c.monitor.config .video = []) :
    FurnishedIfOk (.timer :: base) (createTimer host c) := by
  unfold createTimer
  refine request_rule (P := FurnishedIfOk (.timer :: base)) (fun _ ok => nomatch ok) fun _ => ?_
  exact createDevices_furnished (h.acquire id) noVideo

theorem createRam_furnished
    (counted : Counted host k base (createMemorySize params k) params.config c)
    (noVideo : wanted params.config .video = []) :
    FurnishedIfOk (.timer :: base) (createRam host c) := by
  have allocated := allocPpRamMapping_allocated counted.small counted.absent
    fun _ => counted.ppGroups
  have tables := counted.tables.setWorld counted.absent allocated.blocks
  refine orElse_rule (P := FurnishedIfOk (.timer :: base)) (fun _ => ?_)
    fun failed ok => absurd ok failed
  refine createTimer_furnished tables ?_
  show wanted c.monitor.config .video = []
  rw [counted.config]
  exact noVideo

theorem created_furnished (created : coMonitorCreate host params id k = (.ok, c))
    (noVideo : wanted params.config .video = []) :
    ∃ t, Furnished c (.timer :: baseHeld host) t := by
  have ok : (coMonitorCreate host params id k).1 = .ok := congrArg (·.1) created
  obtain ⟨c0, fresh, pointers, held, run⟩ := @coMonitorCreate_atBudget host k params id
    (reachesBudget_of_ok ok)
  have budget : FurnishedIfOk (.timer :: baseHeld host) (createBudget host params c0) := by
    unfold createBudget
    dsimp only
    split
    · exact fun ok => nomatch ok
    · exact createRam_furnished (counted_configure fresh pointers held params) noVideo
  rw [← run, created] at budget
  exact budget rfl

theorem new_lifeInv (used : k.hostmemUsed < wordSize)
    (created : coMonitorCreate host params id k = (.ok, c))
    (noVideo : wanted params.config .video = []) :
    LifeInv params.config (.timer :: baseHeld host) c := by
  obtain ⟨failed, -⟩ | ⟨-, done⟩ := coMonitorCreate_cases host params id used
  · rw [created] at failed
    exact absurd rfl failed
  rw [created] at done
  have small : SmallMemory c.world :=
    Nat.le_trans (Nat.le_of_eq done.memorySize) (createMemorySize_bounds params k).2
  constructor
  · exact done.config
  · exact ⟨small, fun none => absurd (none.symm.trans done.hasPpPfns) nofun⟩
  · exact Nat.lt_of_le_of_lt (Nat.le_of_eq done.swapper) params.swapper_lt
  · exact fun _ => done.hasPpPfns
  · exact done.archdep.trans done.passagePage.symm
  · rw [done.passagePage]
    nofun
  · rw [done.passagePage]
    exact created_furnished created noVideo

theorem plainBase_create (host : HostAnswers) : PlainBase (.timer :: baseHeld host) := by
  unfold PlainBase baseHeld osHeld
  cases host.grants .conetProtocol <;> cases host.grants .conetMutex <;>
    cases host.grants .osdepMutex <;> decide

/-! ## Every life -/

/-- A monitor without video devices is balanced in every state of a life in which no START comes
to the allocation of the passage page while an earlier one is there, and a destruction in any of
them gives every block back. -/
theorem lifeSound (used : k.hostmemUsed < wordSize)
    (created : coMonitorCreate host params id k = (.ok, c))
    (noVideo : ∀ u < coModuleMaxCovideo, params.config.enabled .video u = false)
    {ops : List LifeOp} (fits : RunOk LifeOp.step LifeOp.Fits ops c) : LifeSound c ops := by
  have none : wanted params.config .video = [] := by
    refine List.filter_eq_nil_iff.mpr fun u mem => ?_
    rw [noVideo u (List.mem_range.mp mem)]
    exact Bool.false_ne_true
  have start := new_lifeInv used created none
  have plain := plainBase_create host
  rintro p ⟨rest, rfl⟩
  have inv : LifeInv params.config (.timer :: baseHeld host) (run LifeOp.step p c) :=
    run_invariant (step_inv none) start ((runOk_append LifeOp.step LifeOp.Fits p rest c).mp fits).1
  exact ⟨inv.balanced plain, inv.destroyed plain⟩

/-- A monitor is reset, loaded with a page for its page directory, and started. -/
def plainLife : List LifeOp :=
  [.reset grantsAll, .loadSection 0xc0300000 4096 none, .start grantsAll]

theorem lifeSound_plain : LifeSound Session.smallMonitor plainLife :=
  lifeSound (by decide) Session.smallMonitor_created (fun _ _ => rfl)
    ⟨trivial, trivial, fun _ _ => by decide +kernel, trivial⟩

/-- A guest of 8 MB with the first video unit. -/
def videoParams : CreateParams :=
  { plainParams 8 with config :=
    { ramSize := 8, enabled := fun kind u => kind = .video ∧ u = 0 } }

def videoMonitor : Cmon := (coMonitorCreate grantsAll videoParams 1 smallHost).2

theorem videoMonitor_created :
    coMonitorCreate grantsAll videoParams 1 smallHost = (.ok, videoMonitor) :=
  Step.eq_of_ok (by decide +kernel)

/-- Its video device is still counted when it is destroyed right away. -/
theorem videoMonitor_blocks :
    (videoMonitor.coMonitorDestroy true).monitor.guest.blocksAllocated = 1 := by
  decide +kernel

/-- A monitor that is started, reset and started again. -/
def restartedLife : List LifeOp :=
  [.loadSection 0xc0300000 4096 none, .start grantsAll, .reset grantsAll,
    .loadSection 0xc0300000 4096 none, .start grantsAll]

/-- It has two passage pages. -/
theorem restartedLife_passagePage : (run LifeOp.step restartedLife
    Session.smallMonitor).monitor.ledger.live.count .passagePage = 2 := by
  decide +kernel

/-- Either life is one of a monitor that was created. -/
theorem lifeSound_fails :
    (coMonitorCreate grantsAll videoParams 1 smallHost = (.ok, videoMonitor) ∧
      ¬ LifeSound videoMonitor []) ∧
    (coMonitorCreate grantsAll (plainParams 8) 1 smallHost = (.ok, Session.smallMonitor) ∧
      ¬ LifeSound Session.smallMonitor restartedLife) := by
  refine ⟨⟨videoMonitor_created, fun sound => ?_⟩, Session.smallMonitor_created, fun sound => ?_⟩
  · have counter := ((sound [] List.nil_prefix).2 true).counter
    rw [run_nil, videoMonitor_blocks] at counter
    exact absurd counter Nat.one_ne_zero
  · have once := (sound restartedLife (List.prefix_refl _)).1.passagePage
    rw [restartedLife_passagePage] at once
    omega

end Cmon

end CoLinux
