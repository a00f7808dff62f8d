import CoLinux.Kernel.Proofs.MonitorCreate
import Mathlib.Data.List.TakeWhile
import Mathlib.Logic.Function.Basic

/-!
# What a monitor's devices hold

The units in the four device tables, what each of them holds, and which of them `load_configuration`
leaves behind: the enabled ones, none, or the video units before the first that was refused.
-/

namespace CoLinux

open Lib

/-- The units of a table. -/
def DeviceKind.units : DeviceKind → List Nat
  | .scsi => List.range coModuleMaxCoscsi
  | .block => List.range coModuleMaxCobd
  | .filesystem => List.range coModuleMaxCofs
  | .video => List.range coModuleMaxCovideo

/-- What a unit of a table holds. -/
def DeviceKind.resources (u : Nat) : DeviceKind → List Resource
  | .filesystem => [.rootInode u, .device .filesystem u]
  | kind => [.device kind u]

/-- Everything that a unit needs is granted. -/
def HostAnswers.Grants (host : HostAnswers) (kind : DeviceKind) (u : Nat) : Prop :=
  ∀ r ∈ kind.resources u, host.grants r = true

instance (host : HostAnswers) (kind : DeviceKind) (u : Nat) : Decidable (host.Grants kind u) :=
  inferInstanceAs (Decidable (∀ r ∈ _, _))

namespace Cmon

/-- The monitor holds `rs` and its frame table, and counts the blocks of both. -/
structure Holds (c : Cmon) (rs : List Resource) : Prop where
  ledger : c.monitor.ledger.Holds rs
  blocks : c.monitor.guest.blocksAllocated = c.world.ppBlocks + rs.countP (·.IsBlock)

variable {c : Cmon} {r : Resource} {rs xs ys : List Resource}

theorem Holds.perm (h : c.Holds rs) (same : rs.Perm xs) : c.Holds xs :=
  ⟨h.ledger.perm same, h.blocks.trans (by rw [same.countP_eq])⟩

/-- It depends on the ledger, the counter and the frame table only. -/
theorem Holds.congr {c' : Cmon} (h : c.Holds rs) (ledger : c'.monitor.ledger = c.monitor.ledger)
    (blocks : c'.monitor.guest.blocksAllocated = c.monitor.guest.blocksAllocated)
    (table : c'.world.ppBlocks = c.world.ppBlocks) : c'.Holds rs :=
  ⟨ledger ▸ h.ledger, by rw [blocks, table, h.blocks]⟩

theorem Holds.acquire (h : c.Holds rs) (single : ¬ r.IsBlock) :
    (c.setLedger (c.monitor.ledger.acquire r)).Holds (r :: rs) := by
  refine ⟨h.ledger.acquire r, ?_⟩
  rw [List.countP_cons_of_neg (by simpa using single)]
  exact h.blocks

theorem Holds.release (h : c.Holds (xs ++ r :: ys)) (single : ¬ r.IsBlock) :
    (c.release r).Holds (xs ++ ys) := by
  refine ⟨h.ledger.release, ?_⟩
  have blocks := h.blocks
  rw [List.perm_middle.countP_eq, List.countP_cons_of_neg (by simpa using single)] at blocks
  exact blocks

theorem Holds.mallocBlock (h : c.Holds rs) (block : r.IsBlock) :
    ((c.setLedger (c.monitor.ledger.acquire r)).setBlocks
      (c.monitor.guest.blocksAllocated + 1)).Holds (r :: rs) := by
  refine ⟨h.ledger.acquire r, ?_⟩
  rw [List.countP_cons_of_pos (by simpa using block)]
  exact congrArg (· + 1) h.blocks

theorem Holds.freeBlock (h : c.Holds (xs ++ r :: ys)) (block : r.IsBlock) :
    (c.freeBlock r).Holds (xs ++ ys) := by
  refine ⟨h.ledger.release, ?_⟩
  have blocks := h.blocks
  rw [List.perm_middle.countP_eq, List.countP_cons_of_pos (by simpa using block)] at blocks
  exact congrArg (· - 1) blocks

/-! ## The tables of devices -/

/-- The table has these units. -/
structure Units (c : Cmon) (kind : DeviceKind) (us : List Nat) : Prop where
  mem : ∀ u, c.monitor.devices kind u = true ↔ u ∈ us
  nodup : us.Nodup

def held (kind : DeviceKind) (us : List Nat) : List Resource := us.flatMap fun u => kind.resources u

/-- `free` gives back what a unit holds. -/
structure FreesUnit (kind : DeviceKind) (free : Nat → Cmon → Cmon) : Prop where
  devices : ∀ u c, (free u c).monitor.devices = c.monitor.devices
  holds : ∀ u c rs, Holds c (kind.resources u ++ rs) → (free u c).Holds rs

theorem frees_block (kind : DeviceKind) (block : ∀ u, (Resource.device kind u).IsBlock) :
    FreesUnit kind fun u => freeBlock (.device kind u) where
  devices _ _ := rfl
  holds u c rs h := by
    have resources : kind.resources u = [.device kind u] := by
      cases kind with
      | filesystem => exact absurd (block u) id
      | scsi | block | video => rfl
    rw [resources] at h
    exact Holds.freeBlock (show c.Holds ([] ++ .device kind u :: rs) from h) (block u)

theorem frees_filesystem : FreesUnit .filesystem coMonitorFileSystemFree where
  devices _ _ := rfl
  holds u c rs h := by
    have inode : (c.release (.rootInode u)).Holds ([] ++ .device .filesystem u :: rs) :=
      Holds.release (show c.Holds ([] ++ .rootInode u :: .device .filesystem u :: rs) from h) id
    exact inode.release id

/-- The loop that empties a table. -/
theorem freeUnits_holds {kind : DeviceKind} {free : Nat → Cmon → Cmon}
    (frees : FreesUnit kind free) {units us : List Nat} (table : c.Units kind us)
    (inside : us ⊆ units) (h : c.Holds (held kind us ++ rs)) :
    (c.freeUnits kind free units).Holds rs ∧ (c.freeUnits kind free units).Units kind [] ∧
      ∀ k ≠ kind, (c.freeUnits kind free units).monitor.devices k = c.monitor.devices k := by
  induction units generalizing c us with
  | nil =>
    cases List.subset_nil.mp inside
    exact ⟨h, table, fun _ _ => rfl⟩
  | cons u units ih =>
    rw [freeUnits, List.foldl_cons, ← freeUnits]
    by_cases present : c.monitor.devices kind u = true
    · rw [if_pos present]
      have mem := (table.mem u).mp present
      have split := List.perm_cons_erase mem
      have devices : (free u (c.setDevice kind u false)).monitor.devices =
        (c.setDevice kind u false).monitor.devices := frees.devices u _
      have table' : (free u (c.setDevice kind u false)).Units kind (us.erase u) := by
        refine ⟨fun v => ?_, table.nodup.erase u⟩
        rw [devices, table.nodup.mem_erase_iff, ← table.mem v]
        by_cases same : v = u
        · simp [setDevice, same]
        · simp [setDevice, same]
      have inside' : us.erase u ⊆ units := by
        intro v hv
        have other := (table.nodup.mem_erase_iff.mp hv).1
        exact (List.mem_cons.mp (inside (List.mem_of_mem_erase hv))).resolve_left other
      have shape : (held kind us).Perm (kind.resources u ++ held kind (us.erase u)) :=
        split.flatMap_right _
      have before : (c.setDevice kind u false).Holds (held kind us ++ rs) := h.congr rfl rfl rfl
      have freed : (free u (c.setDevice kind u false)).Holds (held kind (us.erase u) ++ rs) := by
        apply frees.holds
        rw [← List.append_assoc]
        exact before.perm (shape.append_right rs)
      obtain ⟨holds, empty, others⟩ := ih table' inside' freed
      refine ⟨holds, empty, fun k other => ?_⟩
      rw [others k other, devices]
      funext v
      simp [setDevice, other]
    · rw [if_neg present]
      refine ih table (fun v hv => ?_) h
      refine (List.mem_cons.mp (inside hv)).resolve_left ?_
      rintro rfl
      exact present ((table.mem v).mpr hv)

/-- `load` takes what a unit holds, or nothing. -/
structure LoadsUnit (host : HostAnswers) (kind : DeviceKind) (load : Nat → Cmon → Step Cmon) :
    Prop where
  granted : ∀ u c, host.Grants kind u → (load u c).1 = .ok ∧
    (load u c).2.monitor.devices = (c.setDevice kind u true).monitor.devices ∧
      ∀ rs, Holds c rs → (load u c).2.Holds (kind.resources u ++ rs)
  refused : ∀ u c, ¬ host.Grants kind u → (load u c).1 ≠ .ok ∧
    (load u c).2.monitor.devices = c.monitor.devices ∧ ∀ rs, Holds c rs → (load u c).2.Holds rs

theorem loads_block {host : HostAnswers} {kind : DeviceKind} {load : Nat → Cmon → Step Cmon}
    (block : ∀ u, (Resource.device kind u).IsBlock) (next : Nat → Cmon → Cmon)
    (eq : ∀ u c, load u c = c.mallocBlock host (.device kind u) fun c => (.ok, next u c))
    (devices : ∀ u c, (next u c).monitor.devices = (c.setDevice kind u true).monitor.devices)
    (holds : ∀ u c rs, Holds c rs → (next u c).Holds rs) : LoadsUnit host kind load := by
  have resources : ∀ u, kind.resources u = [.device kind u] := by
    intro u
    cases kind with
    | filesystem => exact absurd (block u) id
    | scsi | block | video => rfl
  have grants : ∀ u, host.Grants kind u ↔ host.grants (.device kind u) = true := by
    intro u
    rw [HostAnswers.Grants, resources, List.forall_mem_singleton]
  constructor
  · intro u c granted
    rw [eq, mallocBlock, request_granted ((grants u).mp granted)]
    refine ⟨rfl, devices u _, fun rs h => holds u _ _ ?_⟩
    rw [resources]
    exact h.mallocBlock (block u)
  · intro u c refused
    rw [grants, Bool.not_eq_true] at refused
    rw [eq, mallocBlock, request_refused refused]
    exact ⟨by simp, rfl, fun rs h => h⟩

theorem loads_scsi (host : HostAnswers) : LoadsUnit host .scsi (loadScsiDevice host) :=
  loads_block (fun _ => trivial) _ (fun _ _ => rfl) (fun _ _ => rfl)
    fun _ _ _ h => h.congr rfl rfl rfl

theorem loads_cobd (host : HostAnswers) : LoadsUnit host .block (loadBlockDevice host) :=
  loads_block (fun _ => trivial) _ (fun _ _ => rfl) (fun _ _ => rfl)
    fun _ _ _ h => h.congr rfl rfl rfl

theorem loads_video (host : HostAnswers) : LoadsUnit host .video (loadVideoDevice host) := by
  refine loads_block (fun _ => trivial) (fun u c => if u = 0 then
    (c.setDevice .video u true).setVideoBuffer .uninitialised else c.setDevice .video u true)
    (fun _ _ => rfl) (fun u c => ?_) fun u c rs h => ?_
  · split
    · rfl
    · rfl
  · split
    · exact h.congr rfl rfl rfl
    · exact h.congr rfl rfl rfl

theorem loads_filesystem (host : HostAnswers) :
    LoadsUnit host .filesystem (coMonitorFileSystemInit host) := by
  have grants : ∀ u, host.Grants .filesystem u ↔
      host.grants (.rootInode u) = true ∧ host.grants (.device .filesystem u) = true := by
    intro u
    simp [HostAnswers.Grants, DeviceKind.resources]
  constructor
  · intro u c granted
    obtain ⟨inode, device⟩ := (grants u).mp granted
    rw [coMonitorFileSystemInit, request_granted device, request_granted inode]
    refine ⟨rfl, rfl, fun rs h => ?_⟩
    exact ((h.acquire id).acquire id).congr rfl rfl rfl
  · intro u c refused
    rw [coMonitorFileSystemInit]
    cases device : host.grants (.device .filesystem u) with
    | false =>
      rw [request_refused device]
      exact ⟨by simp, rfl, fun rs h => h⟩
    | true =>
      have inode : host.grants (.rootInode u) = false := by
        rw [grants, device, and_iff_left rfl, Bool.not_eq_true] at refused
        exact refused
      rw [request_granted device, request_refused inode]
      refine ⟨by simp, rfl, fun rs h => ?_⟩
      have device : (c.setLedger (c.monitor.ledger.acquire (.device .filesystem u))).Holds
        ([] ++ .device .filesystem u :: rs) := h.acquire id
      exact device.release id

/-- The units of a loop that are loaded before the first that is refused. -/
def loadedUnits (host : HostAnswers) (kind : DeviceKind) (units : List Nat) : List Nat :=
  units.takeWhile fun u => host.Grants kind u

theorem Units.perm {kind : DeviceKind} {us vs : List Nat} (h : c.Units kind us)
    (same : us.Perm vs) : c.Units kind vs :=
  ⟨fun u => (h.mem u).trans same.mem_iff, same.nodup_iff.mp h.nodup⟩

/-- A loop that fills a table that has `us` already. -/
theorem loadUnits_holds {host : HostAnswers} {kind : DeviceKind} {load : Nat → Cmon → Step Cmon}
    (loads : LoadsUnit host kind load) (enabled : Nat → Bool) {units us : List Nat}
    (fresh : (units.filter enabled ++ us).Nodup) (table : c.Units kind us)
    (h : c.Holds (held kind us ++ rs)) :
    ((loadUnits enabled load units c).1 = .ok ↔
      ∀ u ∈ units.filter enabled, host.Grants kind u) ∧
    (loadUnits enabled load units c).2.Units kind
      (loadedUnits host kind (units.filter enabled) ++ us) ∧
    (loadUnits enabled load units c).2.Holds
      (held kind (loadedUnits host kind (units.filter enabled) ++ us) ++ rs) ∧
    ∀ k ≠ kind, (loadUnits enabled load units c).2.monitor.devices k = c.monitor.devices k := by
  induction units generalizing c us with
  | nil =>
    exact ⟨iff_of_true rfl fun u mem => absurd mem List.not_mem_nil, table, h, fun _ _ => rfl⟩
  | cons u units ih =>
    rw [loadUnits]
    by_cases on : enabled u = true
    swap
    · rw [if_neg on, List.filter_cons_of_neg on] at *
      exact ih fresh table h
    rw [if_pos on]
    rw [List.filter_cons_of_pos on] at fresh ⊢
    rw [List.forall_mem_cons]
    by_cases granted : host.Grants kind u
    · obtain ⟨ok, devices, holds⟩ := loads.granted u c granted
      have moved : (units.filter enabled ++ u :: us).Perm (u :: units.filter enabled ++ us) :=
        List.perm_middle
      have absent : u ∉ us := by
        intro mem
        exact (List.nodup_cons.mp fresh).1 (List.mem_append_right _ mem)
      have table' : (load u c).2.Units kind (u :: us) := by
        refine ⟨fun v => ?_, List.nodup_cons.mpr ⟨absent, table.nodup⟩⟩
        rw [devices, List.mem_cons, ← table.mem v]
        by_cases same : v = u
        · simp [setDevice, same]
        · simp [setDevice, same]
      have holds' : (load u c).2.Holds (held kind (u :: us) ++ rs) := by
        have := holds _ h
        rwa [← List.append_assoc] at this
      obtain ⟨done, tables, left, others⟩ := ih (moved.nodup_iff.mpr fresh) table' holds'
      have split : loadedUnits host kind (u :: units.filter enabled) =
          u :: loadedUnits host kind (units.filter enabled) :=
        List.takeWhile_cons_of_pos (by simpa using granted)
      have same : (loadedUnits host kind (units.filter enabled) ++ u :: us).Perm
          (loadedUnits host kind (u :: units.filter enabled) ++ us) := by
        rw [split]
        exact List.perm_middle
      rw [Step.andThen_of_ok ok]
      refine ⟨?_, tables.perm same, left.perm ((same.flatMap_right _).append_right rs), ?_⟩
      · rw [done, and_iff_right granted]
      · intro k other
        rw [others k other, devices]
        funext v
        simp [setDevice, other]
    · obtain ⟨failed, devices, holds⟩ := loads.refused u c granted
      have none : loadedUnits host kind (u :: units.filter enabled) = [] :=
        List.takeWhile_cons_of_neg (by simpa using granted)
      rw [Step.andThen_of_ne failed, none]
      refine ⟨iff_of_false failed fun all => granted all.1, ⟨fun v => ?_, table.nodup⟩,
        holds _ h, fun k _ => ?_⟩
      · rw [devices]
        exact table.mem v
      · rw [devices]

/-! ## The four tables -/

/-- What the units of all tables hold. -/
def heldAll (t : DeviceKind → List Nat) : List Resource :=
  held .scsi (t .scsi) ++ (held .block (t .block) ++
    (held .filesystem (t .filesystem) ++ held .video (t .video)))

/-- The units of each table, what they hold, and what else is held. -/
structure Tables (c : Cmon) (t : DeviceKind → List Nat) (rs : List Resource) : Prop where
  units : ∀ kind, c.Units kind (t kind)
  holds : c.Holds (heldAll t ++ rs)

/-- It depends on the tables, the ledger, the counter and the frame table only. -/
theorem Tables.congr {c' : Cmon} {t : DeviceKind → List Nat} (h : c.Tables t rs)
    (devices : c'.monitor.devices = c.monitor.devices)
    (ledger : c'.monitor.ledger = c.monitor.ledger)
    (blocks : c'.monitor.guest.blocksAllocated = c.monitor.guest.blocksAllocated)
    (table : c'.world.ppBlocks = c.world.ppBlocks) : c'.Tables t rs where
  units := fun kind => ⟨fun u => by rw [devices]; exact (h.units kind).mem u, (h.units kind).nodup⟩
  holds := h.holds.congr ledger blocks table

theorem Tables.acquire {t : DeviceKind → List Nat} (h : c.Tables t rs) (single : ¬ r.IsBlock) :
    (c.setLedger (c.monitor.ledger.acquire r)).Tables t (r :: rs) := by
  refine ⟨fun kind => ⟨(h.units kind).mem, (h.units kind).nodup⟩, ?_⟩
  exact (h.holds.acquire single).perm List.perm_middle.symm

/-- One table taken out. -/
theorem heldAll_perm (t : DeviceKind → List Nat) (kind : DeviceKind) :
    (heldAll t).Perm (held kind (t kind) ++ heldAll (Function.update t kind [])) := by
  have none : ∀ k, held k [] = [] := fun _ => rfl
  cases kind with
  | scsi => simp [heldAll, none]
  | block =>
    simp only [heldAll, Function.update_self, ne_eq, reduceCtorEq, not_false_eq_true,
      Function.update_of_ne, none, List.nil_append]
    exact List.perm_append_comm_assoc _ _ _
  | filesystem =>
    simp only [heldAll, Function.update_self, ne_eq, reduceCtorEq, not_false_eq_true,
      Function.update_of_ne, none, List.nil_append]
    refine (List.Perm.append_left _ (List.perm_append_comm_assoc _ _ _)).trans ?_
    exact List.perm_append_comm_assoc _ _ _
  | video =>
    simp only [heldAll, Function.update_self, ne_eq, reduceCtorEq, not_false_eq_true,
      Function.update_of_ne, none, List.append_nil]
    refine (List.Perm.append_left _ (List.Perm.append_left _ List.perm_append_comm)).trans ?_
    refine (List.Perm.append_left _ (List.perm_append_comm_assoc _ _ _)).trans ?_
    exact List.perm_append_comm_assoc _ _ _

variable {t : DeviceKind → List Nat}

theorem Tables.free {kind : DeviceKind} {free : Nat → Cmon → Cmon} (h : c.Tables t rs)
    (frees : FreesUnit kind free) {units : List Nat} (inside : t kind ⊆ units) :
    (c.freeUnits kind free units).Tables (Function.update t kind []) rs := by
  have front : c.Holds (held kind (t kind) ++ (heldAll (Function.update t kind []) ++ rs)) := by
    rw [← List.append_assoc]
    exact h.holds.perm ((heldAll_perm t kind).append_right rs)
  obtain ⟨holds, empty, others⟩ := freeUnits_holds frees (h.units kind) inside front
  refine ⟨fun k => ?_, holds⟩
  by_cases same : k = kind
  · subst same
    rw [Function.update_self]
    exact empty
  · rw [Function.update_of_ne same]
    refine ⟨fun u => ?_, (h.units k).nodup⟩
    rw [others k same]
    exact (h.units k).mem u

theorem Tables.load {host : HostAnswers} {kind : DeviceKind} {load : Nat → Cmon → Step Cmon}
    (h : c.Tables t rs) (loads : LoadsUnit host kind load) (enabled : Nat → Bool)
    {units : List Nat} (distinct : units.Nodup) (fresh : t kind = []) :
    ((loadUnits enabled load units c).1 = .ok ↔
      ∀ u ∈ units.filter enabled, host.Grants kind u) ∧
    (loadUnits enabled load units c).2.Tables
      (Function.update t kind (loadedUnits host kind (units.filter enabled))) rs := by
  have front : c.Holds (held kind [] ++ (heldAll t ++ rs)) := h.holds
  have table : c.Units kind [] := fresh ▸ h.units kind
  have enabledOnce : (units.filter enabled ++ []).Nodup := by
    rw [List.append_nil]
    exact distinct.filter _
  obtain ⟨done, tables, holds, others⟩ := loadUnits_holds loads enabled enabledOnce table front
  rw [List.append_nil] at tables holds
  refine ⟨done, fun k => ?_, ?_⟩
  · by_cases same : k = kind
    · subst same
      rw [Function.update_self]
      exact tables
    · rw [Function.update_of_ne same]
      refine ⟨fun u => ?_, (h.units k).nodup⟩
      rw [others k same]
      exact (h.units k).mem u
  · have whole := heldAll_perm
      (Function.update t kind (loadedUnits host kind (units.filter enabled))) kind
    rw [Function.update_self, Function.update_idem, ← fresh, Function.update_eq_self] at whole
    have := holds.perm (List.Perm.of_eq (List.append_assoc _ _ _).symm)
    exact this.perm (whole.symm.append_right rs)

/-! ## `load_configuration` -/

theorem nodup_units (kind : DeviceKind) : kind.units.Nodup := by
  cases kind <;> exact List.nodup_range

/-- The units of a table that the configuration enables. -/
def wanted (config : CoConfig) (kind : DeviceKind) : List Nat :=
  kind.units.filter (config.enabled kind)

/-- Everything that the enabled units of a table need is granted. -/
def GrantsUnits (host : HostAnswers) (config : CoConfig) (kind : DeviceKind) : Prop :=
  ∀ u ∈ wanted config kind, host.Grants kind u

instance (host : HostAnswers) (config : CoConfig) (kind : DeviceKind) :
    Decidable (GrantsUnits host config kind) := inferInstanceAs (Decidable (∀ u ∈ _, _))

/-- Everything is granted that the units before the video devices need. -/
def GrantsBeforeVideo (host : HostAnswers) (config : CoConfig) : Prop :=
  GrantsUnits host config .scsi ∧ GrantsUnits host config .block ∧
    GrantsUnits host config .filesystem

instance (host : HostAnswers) (config : CoConfig) : Decidable (GrantsBeforeVideo host config) :=
  inferInstanceAs (Decidable (_ ∧ _ ∧ _))

theorem Tables.error0 (h : c.Tables t rs) (inside : t .scsi ⊆ DeviceKind.scsi.units) :
    (error0 c).Tables (Function.update t .scsi []) rs :=
  h.free (frees_block .scsi fun _ => trivial) inside

theorem Tables.error1 (h : c.Tables t rs) (inside : ∀ kind, t kind ⊆ kind.units) :
    (error1 c).Tables (Function.update (Function.update t .block []) .scsi []) rs := by
  have blocks := h.free (frees_block .block fun _ => trivial) (inside .block)
  exact blocks.error0 (inside .scsi)

theorem Tables.error2 (h : c.Tables t rs) (inside : ∀ kind, t kind ⊆ kind.units) :
    (error2 c).Tables (Function.update (Function.update (Function.update t .filesystem [])
      .block []) .scsi []) rs := by
  have files := h.free frees_filesystem (inside .filesystem)
  refine files.error1 fun kind => ?_
  by_cases same : kind = .filesystem
  · rw [same, Function.update_self]
    exact List.nil_subset _
  · rw [Function.update_of_ne same]
    exact inside kind

theorem loadedUnits_subset (host : HostAnswers) (config : CoConfig) (kind : DeviceKind) :
    loadedUnits host kind (wanted config kind) ⊆ kind.units :=
  fun _ mem => List.mem_of_mem_filter ((List.takeWhile_sublist _).subset mem)

theorem loadedUnits_all {host : HostAnswers} {kind : DeviceKind} {units : List Nat}
    (all : ∀ u ∈ units, host.Grants kind u) : loadedUnits host kind units = units :=
  List.takeWhile_eq_self_iff.mpr fun u mem => decide_eq_true (all u mem)

/-- The tables without one of them. -/
theorem update_nil_subset (inside : ∀ kind, t kind ⊆ kind.units) (kind : DeviceKind) :
    ∀ k, Function.update t kind [] k ⊆ k.units := by
  intro k
  by_cases same : k = kind
  · rw [same, Function.update_self]
    exact List.nil_subset _
  · rw [Function.update_of_ne same]
    exact inside k

theorem nil_subset (kind : DeviceKind) : (fun _ => [] : DeviceKind → List Nat) kind ⊆ kind.units :=
  List.nil_subset _

theorem Tables.congr_units {t' : DeviceKind → List Nat} (h : c.Tables t rs)
    (same : ∀ kind, t kind = t' kind) : c.Tables t' rs :=
  (funext same : t = t') ▸ h

theorem update_wanted_subset (inside : ∀ kind, t kind ⊆ kind.units) (config : CoConfig)
    (kind : DeviceKind) : ∀ k, Function.update t kind (wanted config kind) k ⊆ k.units := by
  intro k
  by_cases same : k = kind
  · rw [same, Function.update_self]
    exact fun _ mem => List.mem_of_mem_filter mem
  · rw [Function.update_of_ne same]
    exact inside k

theorem update_loaded_subset (inside : ∀ kind, t kind ⊆ kind.units) (host : HostAnswers)
    (config : CoConfig) (kind : DeviceKind) :
    ∀ k, Function.update t kind (loadedUnits host kind (wanted config kind)) k ⊆ k.units := by
  intro k
  by_cases same : k = kind
  · rw [same, Function.update_self]
    exact loadedUnits_subset host config kind
  · rw [Function.update_of_ne same]
    exact inside k

/-- A loop with its label. -/
theorem Tables.orElse_rule {P : Step Cmon → Prop} {host : HostAnswers} {kind : DeviceKind}
    {load : Nat → Cmon → Step Cmon} (h : c.Tables t rs) (loads : LoadsUnit host kind load)
    (config : CoConfig) (fresh : t kind = []) {label : Cmon → Cmon} {next : Cmon → Step Cmon}
    (onOk : GrantsUnits host config kind →
      ∀ c', c'.Tables (Function.update t kind (wanted config kind)) rs → P (next c'))
    (onFail : ¬ GrantsUnits host config kind → ∀ rc ≠ CoRc.ok, ∀ c',
      c'.Tables (Function.update t kind (loadedUnits host kind (wanted config kind))) rs →
        P (rc, label c')) :
    P (Cmon.orElse (loadUnits (config.enabled kind) load kind.units c) label next) := by
  obtain ⟨done, tables⟩ := h.load loads (config.enabled kind) (nodup_units kind) fresh
  refine Cmon.orElse_rule (fun ok => ?_) fun failed => ?_
  · have granted := done.mp ok
    refine onOk granted _ ?_
    rwa [loadedUnits_all granted] at tables
  · exact onFail (fun granted => failed (done.mpr granted)) _ failed _ tables

/-- The units that `load_configuration` leaves in the tables. -/
def leftUnits (host : HostAnswers) (config : CoConfig) : DeviceKind → List Nat :=
  if ¬ GrantsBeforeVideo host config then fun _ => []
  else if ¬ GrantsUnits host config .video then
    Function.update (fun _ => []) .video (loadedUnits host .video (wanted config .video))
  else wanted config

theorem loadConfiguration_tables (host : HostAnswers) (h : c.Tables (fun _ => []) rs) :
    ((loadConfiguration host c).1 = .ok ↔
      GrantsBeforeVideo host c.monitor.config ∧ GrantsUnits host c.monitor.config .video) ∧
    (loadConfiguration host c).2.Tables (leftUnits host c.monitor.config) rs := by
  unfold leftUnits GrantsBeforeVideo loadConfiguration
  dsimp only
  generalize c.monitor.config = config
  refine h.orElse_rule (P := fun r => (r.1 = .ok ↔ _) ∧ Tables r.2 _ rs) (loads_scsi host) config
    rfl (fun scsi c1 h1 => ?_) fun scsi rc ne c1 h1 => ?_
  swap
  · rw [if_pos fun all => scsi all.1]
    refine ⟨iff_of_false ne fun all => scsi all.1.1, ?_⟩
    have left := h1.error0 (update_loaded_subset nil_subset host config .scsi .scsi)
    rwa [Function.update_idem, Function.update_eq_self] at left
  have inside1 := update_wanted_subset nil_subset config .scsi
  refine h1.orElse_rule (P := fun r => (r.1 = .ok ↔ _) ∧ Tables r.2 _ rs) (loads_cobd host) config
    rfl (fun cobd c2 h2 => ?_) fun cobd rc ne c2 h2 => ?_
  swap
  · rw [if_pos fun all => cobd all.2.1]
    refine ⟨iff_of_false ne fun all => cobd all.1.2.1, ?_⟩
    dsimp only
    refine (h2.error1 (update_loaded_subset inside1 host config .block)).congr_units ?_
    intro kind
    cases kind <;> simp
  have inside2 := update_wanted_subset inside1 config .block
  refine h2.orElse_rule (P := fun r => (r.1 = .ok ↔ _) ∧ Tables r.2 _ rs) (loads_filesystem host)
    config rfl (fun cofs c3 h3 => ?_) fun cofs rc ne c3 h3 => ?_
  swap
  · rw [if_pos fun all => cofs all.2.2]
    refine ⟨iff_of_false ne fun all => cofs all.1.2.2, ?_⟩
    dsimp only
    refine (h3.error2 (update_loaded_subset inside2 host config .filesystem)).congr_units ?_
    intro kind
    cases kind <;> simp
  have inside3 := update_wanted_subset inside2 config .filesystem
  rw [if_neg (not_not.mpr ⟨scsi, cobd, cofs⟩)]
  refine h3.orElse_rule (P := fun r => (r.1 = .ok ↔ _) ∧ Tables r.2 _ rs) (loads_video host)
    config rfl (fun video c4 h4 => ?_) fun video rc ne c4 h4 => ?_
  · rw [if_neg (not_not.mpr video)]
    exact ⟨iff_of_true rfl ⟨⟨scsi, cobd, cofs⟩, video⟩, h4.congr_units fun kind => by
      cases kind <;> simp⟩
  · rw [if_pos video]
    refine ⟨iff_of_false ne fun all => video all.2, ?_⟩
    dsimp only
    refine (h4.error2 (update_loaded_subset inside3 host config .video)).congr_units ?_
    intro kind
    cases kind <;> simp

end Cmon

end CoLinux
