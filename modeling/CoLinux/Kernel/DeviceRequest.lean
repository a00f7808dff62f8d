import CoLinux.Common.Messages
import Mathlib.Logic.Function.Basic
import Mathlib.Tactic.SplitIfs

/-!
# Device requests of the guest (`device_request` in `kernel/monitor.c`)

The guest puts a device number and parameter words into the passage page. Six services take their
unit from there, each with a type and a test of its own, and look it up in a table of the monitor.
`touched` are the table entries that were read, `called` the entries that were used as pointers.
What a service does behind its entry is left open, and so is what lies next to a table.
-/

namespace CoLinux

abbrev coDeviceFilesystem : Nat := 7
abbrev coDevicePci : Nat := 12

abbrev coNetworkGetMac : UInt32 := 0
abbrev copciGetConfig : UInt32 := 0
abbrev coScsiGetConfig : Int := 0
abbrev coscsiDeviceEnabled : UInt32 := 0x80
abbrev coVideoGetConfig : Int := 0
abbrev coVideoTest : Int := 1

/-- `CO_BLOCK_REQUEST_RETCODE_ERROR` and `-ENODEV` as the words of the passage page. -/
abbrev blockRetcodeError : UInt32 := 0xFFFFFFFF
abbrev minusEnodev : UInt32 := 0xFFFFFFED

/-- The tables of the monitor with an entry for each unit. -/
inductive DeviceTable where
  | blockDevs
  | scsiDevs
  | filesystems
  | videoDevs
  | netDevs
  deriving DecidableEq

def DeviceTable.length : DeviceTable → Nat
  | blockDevs => coModuleMaxCobd
  | scsiDevs => coModuleMaxCoscsi
  | filesystems => coModuleMaxCofs
  | videoDevs => coModuleMaxCovideo
  | netDevs => coModuleMaxConet

/-- The words of `co_passage_page->params`. -/
abbrev Params := Nat → UInt32

/-- A word taken as an `int`. -/
def intOf (x : UInt32) : Int := x.toBitVec.toInt

/-- `co_netdev_desc_t`: the address as its first four and its last two bytes. -/
structure NetDevDesc where
  enabled : Bool
  macLow : UInt32
  macHigh : UInt32

/-- What the services make of a monitor `μ`. -/
structure DeviceServices (μ : Type) where
  /-- The pointer at an index of a table of pointers, or of what lies around it; 0 is `NULL`. -/
  entry : μ → DeviceTable → Int → Nat
  netDevs : μ → Nat → NetDevDesc
  /-- `conf->type` of a SCSI device. -/
  scsiType : μ → Nat → UInt32
  /-- What `co_pci_request` writes for `COPCI_GET_CONFIG`. -/
  pciConfig : μ → Params → Params
  /-- `intern_monitor_block_request` with the device it has found, and so on. -/
  block : Nat → μ × Params → μ × Params
  filesystem : Nat → μ × Params → μ × Params
  scsi : Nat → μ × Params → μ × Params
  video : Nat → μ × Params → μ × Params

structure DeviceRun (μ : Type) where
  monitor : μ
  params : Params
  touched : List (DeviceTable × Int)
  called : List Nat

namespace DeviceRun

variable {μ : Type}

def set (i : Nat) (x : UInt32) (s : DeviceRun μ) : DeviceRun μ :=
  { s with params := Function.update s.params i x }

def touch (t : DeviceTable) (i : Int) (s : DeviceRun μ) : DeviceRun μ :=
  { s with touched := (t, i) :: s.touched }

/-- A service behind an entry. -/
def call (service : Nat → μ × Params → μ × Params) (p : Nat) (s : DeviceRun μ) : DeviceRun μ where
  monitor := (service p (s.monitor, s.params)).1
  params := (service p (s.monitor, s.params)).2
  touched := s.touched
  called := p :: s.called

variable (services : DeviceServices μ)

/-- `co_monitor_block_request`; the request is behind the unit. -/
def coMonitorBlockRequest (unit : Nat) (s : DeviceRun μ) : DeviceRun μ :=
  if coModuleMaxCobd ≤ unit then s.set 3 blockRetcodeError
  else if services.entry s.monitor .blockDevs unit = 0 then
    (s.touch .blockDevs unit).set 3 blockRetcodeError
  else (s.touch .blockDevs unit).call services.block (services.entry s.monitor .blockDevs unit)

/-- `CO_DEVICE_NETWORK`: `co_network_request_t` lies over the parameters. -/
def network (s : DeviceRun μ) : DeviceRun μ :=
  let unit := (s.params 2).toNat
  let s := s.set 5 0
  if coModuleMaxConet ≤ unit then s
  else if s.params 1 = coNetworkGetMac then
    let dev := services.netDevs s.monitor unit
    let s := (s.touch .netDevs unit).set 5 (if dev.enabled then 1 else 0)
    if dev.enabled then
      (s.set 3 dev.macLow).set 4 ((s.params 4 &&& 0xFFFF0000) ||| (dev.macHigh &&& 0xFFFF))
    else s
  else s

/-- `co_monitor_file_system`. -/
def coMonitorFileSystem (unit : Nat) (s : DeviceRun μ) : DeviceRun μ :=
  let s := s.touch .filesystems unit
  if services.entry s.monitor .filesystems unit = 0 then s.set 4 minusEnodev
  else s.call services.filesystem (services.entry s.monitor .filesystems unit)

/-- `co_pci_request`. -/
def coPciRequest (op : UInt32) (s : DeviceRun μ) : DeviceRun μ :=
  if op = copciGetConfig then { s with params := services.pciConfig s.monitor s.params }
  else s.set 0 1

/-- A turn of the loop of `CO_SCSI_GET_CONFIG`. -/
def scsiConfig (s : DeviceRun μ) (x : Nat) : DeviceRun μ :=
  let dp := services.entry s.monitor .scsiDevs x
  let s := s.touch .scsiDevs x
  if dp ≠ 0 then
    { s with called := dp :: s.called }.set (x + 1)
      (services.scsiType s.monitor dp ||| coscsiDeviceEnabled)
  else s.set (x + 1) 0

/-- `co_scsi_request` behind `get_dp`, which returns `dp`. -/
def scsiOp (op : Int) (dp : Nat) (s : DeviceRun μ) : DeviceRun μ :=
  if dp = 0 ∧ op ≠ coScsiGetConfig then s.set 0 1
  else if op = coScsiGetConfig then
    ((List.range coModuleMaxCoscsi).foldl (scsiConfig services) s).set 0 0
  else if 1 ≤ op ∧ op ≤ 5 then s.call services.scsi dp
  else s

/-- `co_scsi_request`. Its `get_dp` has no lower limit. -/
def coScsiRequest (op unit : Int) (s : DeviceRun μ) : DeviceRun μ :=
  if unit < coModuleMaxCoscsi then
    scsiOp services op (services.entry s.monitor .scsiDevs unit) (s.touch .scsiDevs unit)
  else scsiOp services op 0 s

/-- `co_video_request` behind `get_dp`, which returns `dp`. -/
def videoOp (op : Int) (dp : Nat) (s : DeviceRun μ) : DeviceRun μ :=
  if dp = 0 then s.set 0 1
  else if op = coVideoGetConfig ∨ op = coVideoTest then s.call services.video dp
  else s.set 0 1

/-- `co_video_request`. Its `get_dp` lets the length of the table through. -/
def coVideoRequest (op unit : Int) (s : DeviceRun μ) : DeviceRun μ :=
  if unit < 0 ∨ unit > coModuleMaxCovideo then videoOp services op 0 s
  else videoOp services op (services.entry s.monitor .videoDevs unit) (s.touch .videoDevs unit)

/-- `device_request`, whose parameters start behind the device number. -/
def deviceRequest (device : Nat) (s : DeviceRun μ) : DeviceRun μ :=
  if device = coDeviceBlock then s.coMonitorBlockRequest services (s.params 1).toNat
  else if device = coDeviceNetwork then s.network services
  else if device = coDeviceFilesystem then s.coMonitorFileSystem services (s.params 1).toNat
  else if device = coDevicePci then s.coPciRequest services (s.params 1)
  else if device = coDeviceScsi then
    s.coScsiRequest services (intOf (s.params 1)) (intOf (s.params 2))
  else if device = coDeviceVideo then
    s.coVideoRequest services (intOf (s.params 1)) (intOf (s.params 2))
  else s

end DeviceRun

/-! ## Which units are confined -/

/-- The unit a request selects, and the table of its device. `CO_SCSI_GET_CONFIG` and the PCI
request are about all units. -/
def selectedUnit (device : Nat) (p : Params) : Option (DeviceTable × Int) :=
  if device = coDeviceBlock then some (.blockDevs, (p 1).toNat)
  else if device = coDeviceNetwork then some (.netDevs, (p 2).toNat)
  else if device = coDeviceFilesystem then some (.filesystems, (p 1).toNat)
  else if device = coDeviceScsi then
    if intOf (p 1) = coScsiGetConfig then none else some (.scsiDevs, intOf (p 2))
  else if device = coDeviceVideo then some (.videoDevs, intOf (p 2))
  else none

/-- How each device tells the guest that there is no such unit. -/
def ErrorAnswered (p : Params) : DeviceTable → Prop
  | .blockDevs => p 3 = blockRetcodeError
  | .netDevs => p 5 = 0
  | .filesystems => p 4 = minusEnodev
  | .scsiDevs | .videoDevs => p 0 = 1

/-- An index of the table. -/
def DeviceTable.Holds (t : DeviceTable) (i : Int) : Prop := 0 ≤ i ∧ i < t.length

section Confined

variable {μ : Type} (services : DeviceServices μ)

/-- The unit has an entry; a network unit has its description always. -/
def Registered (m : μ) (u : DeviceTable × Int) : Prop :=
  u.1.Holds u.2 ∧ (u.1 = .netDevs ∨ services.entry m u.1 u.2 ≠ 0)

/-- A request reads its tables below their lengths only and uses no `NULL` entry; a unit without
an entry gets an error and changes nothing. -/
structure DeviceConfined (device : Nat) (m : μ) (p : Params) (r : DeviceRun μ) : Prop where
  touched : ∀ a ∈ r.touched, a.1.Holds a.2
  called : ∀ q ∈ r.called, q ≠ 0
  others : ∀ u, selectedUnit device p = some u → ¬Registered services m u →
    ErrorAnswered r.params u.1 ∧ r.monitor = m ∧ r.called = []

/-- The unit is one that the test of its service gets right. -/
def UnitTested (device : Nat) (p : Params) : Prop :=
  (device = coDeviceFilesystem → (p 1).toNat < coModuleMaxCofs) ∧
    (device = coDeviceScsi → 0 ≤ intOf (p 2)) ∧
    (device = coDeviceVideo → intOf (p 2) ≠ coModuleMaxCovideo)

variable {services} {m : μ} {p : Params}

theorem DeviceRun.mem_touched_scsiConfig (s : DeviceRun μ) (xs : List Nat) {a : DeviceTable × Int} :
    a ∈ (xs.foldl (scsiConfig services) s).touched ↔
      a ∈ s.touched ∨ ∃ x ∈ xs, a = (.scsiDevs, (x : Int)) := by
  induction xs generalizing s with
  | nil => simp
  | cons x xs ih =>
    have turn : (scsiConfig services s x).touched = (.scsiDevs, (x : Int)) :: s.touched := by
      unfold scsiConfig
      dsimp only
      split_ifs <;> rfl
    rw [List.foldl_cons, ih, turn, List.mem_cons]
    simp only [List.mem_cons, exists_eq_or_imp]
    exact or_assoc.trans or_left_comm

theorem DeviceRun.called_scsiConfig (s : DeviceRun μ) (xs : List Nat)
    (nonNull : ∀ q ∈ s.called, q ≠ 0) :
    ∀ q ∈ (xs.foldl (scsiConfig services) s).called, q ≠ 0 := by
  induction xs generalizing s with
  | nil => exact nonNull
  | cons x xs ih =>
    rw [List.foldl_cons]
    apply ih
    unfold scsiConfig
    dsimp only
    split_ifs with entry
    · intro q hq
      rcases List.mem_cons.mp hq with rfl | hq
      · exact entry
      · exact nonNull q hq
    · exact nonNull

/-- `co_scsi_request` behind `get_dp`: what it reads, and that it uses an entry. -/
theorem DeviceRun.scsiOp_spec {s : DeviceRun μ} (fresh : s.called = []) (op : Int) (dp : Nat) :
    (∀ a, a ∈ (scsiOp services op dp s).touched ↔ a ∈ s.touched ∨
        op = coScsiGetConfig ∧ ∃ x < coModuleMaxCoscsi, a = (.scsiDevs, (x : Int))) ∧
      (∀ q ∈ (scsiOp services op dp s).called, q ≠ 0) ∧
      (dp = 0 → op ≠ coScsiGetConfig → (scsiOp services op dp s).params 0 = 1 ∧
        (scsiOp services op dp s).monitor = s.monitor ∧
        (scsiOp services op dp s).called = []) := by
  unfold scsiOp
  split_ifs with none config range
  · refine ⟨fun a => ?_, ?_, fun _ _ => ⟨by simp [set], rfl, fresh⟩⟩
    · simp [set, none.2]
    · simp [set, fresh]
  · refine ⟨fun a => ?_, ?_, fun _ other => absurd config other⟩
    · simp only [set, mem_touched_scsiConfig, config, true_and, List.mem_range]
    · exact called_scsiConfig s _ (by simp [fresh])
  · have some : dp ≠ 0 := fun zero => none ⟨zero, config⟩
    refine ⟨fun a => ?_, ?_, fun zero => absurd zero some⟩
    · simp [call, config]
    · simpa [call, fresh] using some
  · refine ⟨fun a => ?_, ?_, fun zero other => absurd ⟨zero, other⟩ none⟩
    · simp [config]
    · simp [fresh]

theorem DeviceRun.videoOp_spec {s : DeviceRun μ} (fresh : s.called = []) (op : Int) (dp : Nat) :
    (videoOp services op dp s).touched = s.touched ∧
      (∀ q ∈ (videoOp services op dp s).called, q ≠ 0) ∧
      (dp = 0 → (videoOp services op dp s).params 0 = 1 ∧
        (videoOp services op dp s).monitor = s.monitor ∧
        (videoOp services op dp s).called = []) := by
  unfold videoOp
  split_ifs with none known
  · exact ⟨rfl, by simp [set, fresh], fun _ => ⟨by simp [set], rfl, fresh⟩⟩
  · exact ⟨rfl, by simpa [call, fresh] using none, fun zero => absurd zero none⟩
  · exact ⟨rfl, by simp [set, fresh], fun zero => absurd zero none⟩

/-- The state in which `device_request` is called. -/
def DeviceRun.enter (m : μ) (p : Params) : DeviceRun μ := ⟨m, p, [], []⟩

theorem block_confined : DeviceConfined services coDeviceBlock m p
    ((DeviceRun.enter m p).coMonitorBlockRequest services (p 1).toNat) := by
  have selected : selectedUnit coDeviceBlock p = some (.blockDevs, ((p 1).toNat : Int)) := rfl
  unfold DeviceRun.coMonitorBlockRequest
  split_ifs with above none
  · refine ⟨by simp [DeviceRun.enter, DeviceRun.set], by simp [DeviceRun.enter, DeviceRun.set], ?_⟩
    intro u hu _
    obtain rfl := Option.some.inj (selected.symm.trans hu)
    exact ⟨by simp [ErrorAnswered, DeviceRun.set], rfl, rfl⟩
  all_goals
    have inside : DeviceTable.Holds .blockDevs ((p 1).toNat : Int) :=
      ⟨Int.natCast_nonneg _, Int.ofNat_lt.mpr (Nat.lt_of_not_le above)⟩
  · refine ⟨?_, by simp [DeviceRun.enter, DeviceRun.set, DeviceRun.touch], ?_⟩
    · intro a ha
      obtain rfl : a = (.blockDevs, ((p 1).toNat : Int)) := by
        simpa [DeviceRun.enter, DeviceRun.set, DeviceRun.touch] using ha
      exact inside
    · intro u hu _
      obtain rfl := Option.some.inj (selected.symm.trans hu)
      exact ⟨by simp [ErrorAnswered, DeviceRun.set], rfl, rfl⟩
  · refine ⟨?_, ?_, ?_⟩
    · intro a ha
      obtain rfl : a = (.blockDevs, ((p 1).toNat : Int)) := by
        simpa [DeviceRun.enter, DeviceRun.call, DeviceRun.touch] using ha
      exact inside
    · simpa [DeviceRun.enter, DeviceRun.call, DeviceRun.touch] using none
    · intro u hu unregistered
      obtain rfl := Option.some.inj (selected.symm.trans hu)
      exact absurd ⟨inside, .inr none⟩ unregistered

theorem network_confined : DeviceConfined services coDeviceNetwork m p
    ((DeviceRun.enter m p).network services) := by
  have selected : selectedUnit coDeviceNetwork p = some (.netDevs, ((p 2).toNat : Int)) := rfl
  have others : ∀ inside : DeviceTable.Holds .netDevs ((p 2).toNat : Int), ∀ u,
      selectedUnit coDeviceNetwork p = some u → ¬Registered services m u → False := by
    intro inside u hu unregistered
    obtain rfl := Option.some.inj (selected.symm.trans hu)
    exact unregistered ⟨inside, .inl rfl⟩
  unfold DeviceRun.network
  dsimp only
  split_ifs with above getMac enabled
  · refine ⟨by simp [DeviceRun.enter, DeviceRun.set], by simp [DeviceRun.enter, DeviceRun.set], ?_⟩
    intro u hu _
    obtain rfl := Option.some.inj (selected.symm.trans hu)
    exact ⟨by simp [ErrorAnswered, DeviceRun.set], rfl, rfl⟩
  all_goals
    have inside : DeviceTable.Holds .netDevs ((p 2).toNat : Int) :=
      ⟨Int.natCast_nonneg _, Int.ofNat_lt.mpr (Nat.lt_of_not_le above)⟩
    refine ⟨?_, by simp [DeviceRun.enter, DeviceRun.set, DeviceRun.touch],
      fun u hu unregistered => (others inside u hu unregistered).elim⟩
    intro a ha
    simp only [DeviceRun.enter, DeviceRun.set, DeviceRun.touch, List.mem_singleton,
      List.not_mem_nil] at ha
  · exact ha ▸ inside
  · exact ha ▸ inside

theorem filesystem_confined : DeviceConfined services coDeviceFilesystem m p
    ((DeviceRun.enter m p).coMonitorFileSystem services (p 1).toNat) ↔
      (p 1).toNat < coModuleMaxCofs := by
  have selected : selectedUnit coDeviceFilesystem p = some (.filesystems, ((p 1).toNat : Int)) := rfl
  have touched : ((DeviceRun.enter m p).coMonitorFileSystem services (p 1).toNat).touched =
      [(.filesystems, ((p 1).toNat : Int))] := by
    unfold DeviceRun.coMonitorFileSystem
    dsimp only
    split_ifs <;> rfl
  constructor
  · intro confined
    have holds := confined.touched (.filesystems, ((p 1).toNat : Int)) (by simp [touched])
    exact Int.ofNat_lt.mp holds.2
  · intro below
    have inside : DeviceTable.Holds .filesystems ((p 1).toNat : Int) :=
      ⟨Int.natCast_nonneg _, Int.ofNat_lt.mpr below⟩
    refine ⟨fun a ha => ?_, ?_, ?_⟩
    · rw [touched, List.mem_singleton] at ha
      exact ha ▸ inside
    · unfold DeviceRun.coMonitorFileSystem
      dsimp only
      split_ifs with none
      · simp [DeviceRun.enter, DeviceRun.set, DeviceRun.touch]
      · simpa [DeviceRun.enter, DeviceRun.call, DeviceRun.touch] using none
    · intro u hu unregistered
      obtain rfl := Option.some.inj (selected.symm.trans hu)
      have none : services.entry m .filesystems (p 1).toNat = 0 := by
        by_contra some
        exact unregistered ⟨inside, .inr some⟩
      have result : (DeviceRun.enter m p).coMonitorFileSystem services (p 1).toNat =
          ((DeviceRun.enter m p).touch .filesystems (p 1).toNat).set 4 minusEnodev := if_pos none
      rw [result]
      exact ⟨by simp [ErrorAnswered, DeviceRun.set], rfl, rfl⟩

theorem scsi_confined : DeviceConfined services coDeviceScsi m p
    ((DeviceRun.enter m p).coScsiRequest services (intOf (p 1)) (intOf (p 2))) ↔
      0 ≤ intOf (p 2) := by
  have selected : ∀ u, selectedUnit coDeviceScsi p = some u →
      intOf (p 1) ≠ coScsiGetConfig ∧ u = (.scsiDevs, intOf (p 2)) := by
    intro u hu
    change (if intOf (p 1) = coScsiGetConfig then none else some (.scsiDevs, intOf (p 2))) = some u
      at hu
    split_ifs at hu with config
    exact ⟨config, (Option.some.inj hu).symm⟩
  have config : ∀ x < coModuleMaxCoscsi, DeviceTable.Holds .scsiDevs (x : Int) := fun x hx =>
    ⟨Int.natCast_nonneg _, Int.ofNat_lt.mpr hx⟩
  unfold DeviceRun.coScsiRequest
  by_cases below : intOf (p 2) < coModuleMaxCoscsi
  · rw [if_pos below]
    obtain ⟨touched, called, refused⟩ := @DeviceRun.scsiOp_spec μ services
      ((DeviceRun.enter m p).touch .scsiDevs (intOf (p 2))) rfl (intOf (p 1))
      (services.entry m .scsiDevs (intOf (p 2)))
    constructor
    · intro confined
      exact (confined.touched (.scsiDevs, intOf (p 2))
        ((touched _).mpr (.inl List.mem_cons_self))).1
    · intro nonneg
      refine ⟨fun a ha => ?_, called, fun u hu unregistered => ?_⟩
      · rcases (touched a).mp ha with ha | ⟨-, x, hx, rfl⟩
        · obtain rfl : a = (.scsiDevs, intOf (p 2)) := by
            simpa [DeviceRun.enter, DeviceRun.touch] using ha
          exact ⟨nonneg, below⟩
        · exact config x hx
      · obtain ⟨other, rfl⟩ := selected u hu
        have none : services.entry m .scsiDevs (intOf (p 2)) = 0 := by
          by_contra some
          exact unregistered ⟨⟨nonneg, below⟩, .inr some⟩
        exact refused none other
  · rw [if_neg below]
    obtain ⟨touched, called, refused⟩ := @DeviceRun.scsiOp_spec μ services
      (DeviceRun.enter m p) rfl (intOf (p 1)) 0
    refine iff_of_true ⟨fun a ha => ?_, called, fun u hu _ => ?_⟩ (by omega)
    · rcases (touched a).mp ha with ha | ⟨-, x, hx, rfl⟩
      · exact absurd ha List.not_mem_nil
      · exact config x hx
    · obtain ⟨other, rfl⟩ := selected u hu
      exact refused rfl other

theorem video_confined : DeviceConfined services coDeviceVideo m p
    ((DeviceRun.enter m p).coVideoRequest services (intOf (p 1)) (intOf (p 2))) ↔
      intOf (p 2) ≠ coModuleMaxCovideo := by
  have selected : selectedUnit coDeviceVideo p = some (.videoDevs, intOf (p 2)) := rfl
  unfold DeviceRun.coVideoRequest
  by_cases outside : intOf (p 2) < 0 ∨ intOf (p 2) > coModuleMaxCovideo
  · rw [if_pos outside]
    obtain ⟨touched, called, refused⟩ := @DeviceRun.videoOp_spec μ services
      (DeviceRun.enter m p) rfl (intOf (p 1)) 0
    refine iff_of_true ⟨fun a ha => ?_, called, fun u hu _ => ?_⟩ (by omega)
    · rw [touched] at ha
      exact absurd ha List.not_mem_nil
    · obtain rfl := Option.some.inj (selected.symm.trans hu)
      exact refused rfl
  · rw [if_neg outside]
    obtain ⟨touched, called, refused⟩ := @DeviceRun.videoOp_spec μ services
      ((DeviceRun.enter m p).touch .videoDevs (intOf (p 2))) rfl (intOf (p 1))
      (services.entry (DeviceRun.enter m p).monitor .videoDevs (intOf (p 2)))
    constructor
    · intro confined full
      have below : intOf (p 2) < coModuleMaxCovideo :=
        (confined.touched (.videoDevs, intOf (p 2)) (touched ▸ List.mem_cons_self)).2
      omega
    · intro other
      have below : intOf (p 2) < coModuleMaxCovideo := by omega
      have inside : DeviceTable.Holds .videoDevs (intOf (p 2)) := ⟨by omega, below⟩
      refine ⟨fun a ha => ?_, called, fun u hu unregistered => ?_⟩
      · rw [touched] at ha
        obtain rfl : a = (.videoDevs, intOf (p 2)) := by
          simpa [DeviceRun.enter, DeviceRun.touch] using ha
        exact inside
      · obtain rfl := Option.some.inj (selected.symm.trans hu)
        have none : services.entry m .videoDevs (intOf (p 2)) = 0 := by
          by_contra some
          exact unregistered ⟨inside, .inr some⟩
        exact refused none

/-- A device request is confined exactly when the test of its service gets the unit right. -/
theorem deviceRequest_confined_iff (services : DeviceServices μ) (device : Nat) (m : μ)
    (p : Params) :
    DeviceConfined services device m p ((DeviceRun.enter m p).deviceRequest services device) ↔
      UnitTested device p := by
  unfold DeviceRun.deviceRequest UnitTested
  by_cases block : device = coDeviceBlock
  · subst block
    exact iff_of_true block_confined ⟨nofun, nofun, nofun⟩
  by_cases net : device = coDeviceNetwork
  · subst net
    exact iff_of_true network_confined ⟨nofun, nofun, nofun⟩
  by_cases fs : device = coDeviceFilesystem
  · subst fs
    refine filesystem_confined.trans
      ⟨fun below => ⟨fun _ => below, ?_, ?_⟩, fun tested => tested.1 rfl⟩
    all_goals intro other; contradiction
  by_cases scsi : device = coDeviceScsi
  · subst scsi
    refine scsi_confined.trans ⟨fun low => ⟨?_, fun _ => low, ?_⟩, fun tested => tested.2.1 rfl⟩
    all_goals intro other; contradiction
  by_cases video : device = coDeviceVideo
  · subst video
    refine video_confined.trans ⟨fun ne => ⟨?_, ?_, fun _ => ne⟩, fun tested => tested.2.2 rfl⟩
    all_goals intro other; contradiction
  have none : selectedUnit device p = none := by
    simp [selectedUnit, block, net, fs, scsi, video]
  simp only [if_neg block, if_neg net, if_neg fs, if_neg scsi, if_neg video]
  refine iff_of_true ?_ ⟨fun same => absurd same fs, fun same => absurd same scsi,
    fun same => absurd same video⟩
  unfold DeviceRun.coPciRequest
  split_ifs
  all_goals
    refine ⟨by simp [DeviceRun.enter, DeviceRun.set], by simp [DeviceRun.enter, DeviceRun.set], ?_⟩
    intro u hu
    rw [none] at hu
    contradiction

end Confined

/-- A monitor without devices. -/
def noDevices : DeviceServices Unit where
  entry _ _ _ := 0
  netDevs _ _ := ⟨false, 0, 0⟩
  scsiType _ _ := 0
  pciConfig _ p := p
  block _ s := s
  filesystem _ s := s
  scsi _ s := s
  video _ s := s

/-- A file system request for unit 32. -/
def cofs32 : Params := fun i => if i = 1 then 32 else 0

theorem cofs32_not_confined :
    ¬DeviceConfined noDevices coDeviceFilesystem () cofs32
      ((DeviceRun.enter () cofs32).deviceRequest noDevices coDeviceFilesystem) := by
  intro confined
  have holds : DeviceTable.Holds .filesystems 32 :=
    confined.touched (.filesystems, 32) (by decide)
  exact absurd holds.2 (by decide)

end CoLinux
