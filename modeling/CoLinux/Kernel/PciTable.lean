import CoLinux.Common.Messages
import CoLinux.Common.Types
import CoLinux.Lib.SlotTable
import Mathlib.Data.List.GetD

/-!
# The PCI table (`kernel/pci.c`)

The user may place units in the functions of 32 devices. The functions of a device are moved down
when function 0 is not used, and then every enabled unit that is not in the table is added to the
first device that is empty or has a unit of its type in function 0.
-/

namespace CoLinux

open Lib

def copciMaxSlots : Nat := 32
def copciMaxFuncs : Nat := 8

/-- `CO_DEVICE_NETWORK`, `CO_DEVICE_SCSI` and `CO_DEVICE_VIDEO`, as types of PCI functions. -/
def pciDeviceNetwork : UInt8 := UInt8.ofNat coDeviceNetwork
def pciDeviceScsi : UInt8 := UInt8.ofNat coDeviceScsi
def pciDeviceVideo : UInt8 := UInt8.ofNat coDeviceVideo

/-- An entry of `config.pci`. It is unused if the type is 0. -/
structure PciFunction where
  type : UInt8
  unit : UInt8
  deriving DecidableEq

/-- `config.pci`, by device and function. -/
abbrev PciTable : Type := Nat → Nat → PciFunction

/-- What `co_pci_setconfig` reads of a monitor. The video adapters are those of a build with
`CONFIG_COOPERATIVE_VIDEO`; there are none in another build. -/
structure PciConfig where
  pci : PciTable
  videoDevs : Nat → Bool
  scsiDevs : Nat → Bool
  netDevs : Nat → Bool

def PciTable.set (t : PciTable) (x y : Nat) (f : PciFunction) : PciTable :=
  fun i j => if i = x ∧ j = y then f else t i j

/-- `pci_space_find`. -/
def pciSpaceFind (t : PciTable) (f : PciFunction) : Bool :=
  (List.range copciMaxSlots).any fun x => (List.range copciMaxFuncs).any fun y => t x y = f

/-- The slot that `pci_space_add` writes, if it writes one. -/
def pciSpaceSlot (t : PciTable) (func : Nat) (f : PciFunction) : Option (Nat × Nat) :=
  match (List.range copciMaxSlots).find? fun x =>
      (t x 0).type = 0 ∨ (t x 0).type = f.type with
  | none => none
  | some x =>
    if pciSpaceFind t f then none else some (x, if (t x 0).type = 0 then 0 else func)

/-- `pci_space_add`. -/
def pciSpaceAdd (t : PciTable) (func : Nat) (f : PciFunction) : PciTable :=
  match pciSpaceSlot t func f with
  | none => t
  | some s => t.set s.1 s.2 f

/-- One turn of the inner loop of the fixup, for the functions of a device; the number is `z`. -/
def fixupFunction (s : (Nat → PciFunction) × Nat) (y : Nat) : (Nat → PciFunction) × Nat :=
  if (s.1 y).type = 0 then s
  else if y ≠ 0 ∧ (s.1 s.2).type = 0 then
    (Function.update (Function.update s.1 s.2 (s.1 y)) y ⟨0, 0⟩, s.2 + 1)
  else s

/-- The fixup of a device. -/
def fixupDevice (row : Nat → PciFunction) : Nat → PciFunction :=
  ((List.range copciMaxFuncs).foldl fixupFunction (row, 0)).1

/-- One turn of the loop over the network interfaces. -/
def addNetwork (netDevs : Nat → Bool) (s : PciTable × Nat) (x : Nat) : PciTable × Nat :=
  if netDevs x then
    (pciSpaceAdd s.1 s.2 ⟨pciDeviceNetwork, UInt8.ofNat x⟩, if 7 < s.2 + 1 then 0 else s.2 + 1)
  else s

/-- `co_pci_setconfig`. -/
def coPciSetconfig (c : PciConfig) : PciTable :=
  let t : PciTable := fun x => fixupDevice (c.pci x)
  let t := (List.range coModuleMaxCovideo).foldl (fun t x =>
    if c.videoDevs x then pciSpaceAdd t 0 ⟨pciDeviceVideo, UInt8.ofNat x⟩ else t) t
  let t := if (List.range coModuleMaxCoscsi).any c.scsiDevs then
    pciSpaceAdd t 0 ⟨pciDeviceScsi, 0⟩ else t
  ((List.range coModuleMaxConet).foldl (addNetwork c.netDevs) (t, 0)).1

/-- `copci_config_t`. -/
structure CopciConfig where
  dev : Nat
  func : Nat
  function : PciFunction
  deriving DecidableEq

/-- `co_pci_request` for `COPCI_GET_CONFIG`: what the guest reads. -/
def coPciRequest (t : PciTable) : List CopciConfig :=
  (List.range copciMaxSlots).flatMap fun x =>
    ((List.range copciMaxFuncs).filter fun y => (t x y).type ≠ 0).map fun y => ⟨x, y, t x y⟩

/-! ## What the table has to hold -/

/-- A unit that is added, and the function that `pci_space_add` gets for it. -/
structure PciRequest where
  func : Nat
  unit : PciFunction
  deriving DecidableEq

/-- The calls of `pci_space_add` for the video adapters. -/
def videoRequests (c : PciConfig) : List PciRequest :=
  ((List.range coModuleMaxCovideo).filter c.videoDevs).map fun x =>
    ⟨0, pciDeviceVideo, UInt8.ofNat x⟩

/-- There is one call for all SCSI units. -/
def scsiRequests (c : PciConfig) : List PciRequest :=
  if (List.range coModuleMaxCoscsi).any c.scsiDevs then [⟨0, pciDeviceScsi, 0⟩] else []

/-- The function of a network interface is its number among those that are enabled. -/
def networkRequests (c : PciConfig) : List PciRequest :=
  ((List.range coModuleMaxConet).filter c.netDevs).zipIdx.map fun n =>
    ⟨n.2 % 8, pciDeviceNetwork, UInt8.ofNat n.1⟩

def pciRequests (c : PciConfig) : List PciRequest :=
  videoRequests c ++ (scsiRequests c ++ networkRequests c)

/-- The slots that the calls write, in order. -/
def pciWritten : List PciRequest → PciTable → List (Nat × Nat)
  | [], _ => []
  | r :: rs, t => (pciSpaceSlot t r.func r.unit).toList ++
      pciWritten rs (pciSpaceAdd t r.func r.unit)

/-- The units of a table. -/
def pciUnits (t : PciTable) : List PciFunction := (coPciRequest t).map CopciConfig.function

/-- The units of a configuration: those of the user, and those that are enabled. -/
inductive Wanted (c : PciConfig) : PciFunction → Prop
  | user {f : PciFunction} (h : f ∈ pciUnits c.pci) : Wanted c f
  | video {x : Nat} (hx : x < coModuleMaxCovideo) (h : c.videoDevs x) :
    Wanted c ⟨pciDeviceVideo, UInt8.ofNat x⟩
  | scsi {x : Nat} (hx : x < coModuleMaxCoscsi) (h : c.scsiDevs x) : Wanted c ⟨pciDeviceScsi, 0⟩
  | network {x : Nat} (hx : x < coModuleMaxConet) (h : c.netDevs x) :
    Wanted c ⟨pciDeviceNetwork, UInt8.ofNat x⟩

/-- The guest finds every unit in exactly one slot and nothing in the others, and no slot outside of
the table, of the user or used before is written. -/
structure PciAssigned (c : PciConfig) : Prop where
  units : ∀ f, Wanted c f → ∃! e, e ∈ coPciRequest (coPciSetconfig c) ∧ e.function = f
  absent : ∀ e ∈ coPciRequest (coPciSetconfig c), Wanted c e.function
  bounds : ∀ e ∈ coPciRequest (coPciSetconfig c), e.dev < copciMaxSlots ∧ e.func < copciMaxFuncs
  once : (pciWritten (pciRequests c) fun x => fixupDevice (c.pci x)).Nodup
  free : ∀ s ∈ pciWritten (pciRequests c) fun x => fixupDevice (c.pci x),
    s.1 < copciMaxSlots ∧ s.2 < copciMaxFuncs ∧ (fixupDevice (c.pci s.1) s.2).type = 0

/-! ## The calls -/

/-- All calls of `pci_space_add`. -/
def pciRun (rs : List PciRequest) (t : PciTable) : PciTable :=
  rs.foldl (fun t r => pciSpaceAdd t r.func r.unit) t

theorem pciRun_append (rs rs' : List PciRequest) (t : PciTable) :
    pciRun (rs ++ rs') t = pciRun rs' (pciRun rs t) := List.foldl_append

theorem foldl_addNetwork (netDevs : Nat → Bool) (xs : List Nat) (t : PciTable) (n : Nat) :
    (xs.foldl (addNetwork netDevs) (t, n % 8)).1 =
      pciRun (((xs.filter netDevs).zipIdx n).map fun k =>
        ⟨k.2 % 8, pciDeviceNetwork, UInt8.ofNat k.1⟩) t := by
  induction xs generalizing t n with
  | nil => rfl
  | cons x xs ih =>
    rw [List.foldl_cons, addNetwork]
    by_cases enabled : netDevs x
    · have wrap : (if 7 < n % 8 + 1 then 0 else n % 8 + 1) = (n + 1) % 8 := by
        split <;> omega
      rw [if_pos enabled, wrap, ih, List.filter_cons_of_pos enabled, List.zipIdx_cons,
        List.map_cons]
      rfl
    · rw [if_neg enabled, ih, List.filter_cons_of_neg enabled]

/-- The table is made by the calls, from what the fixup leaves. -/
theorem coPciSetconfig_eq (c : PciConfig) :
    coPciSetconfig c = pciRun (pciRequests c) fun x => fixupDevice (c.pci x) := by
  have video : ∀ (xs : List Nat) (t : PciTable), xs.foldl (fun t x =>
      if c.videoDevs x then pciSpaceAdd t 0 ⟨pciDeviceVideo, UInt8.ofNat x⟩ else t) t =
      pciRun ((xs.filter c.videoDevs).map fun x => ⟨0, pciDeviceVideo, UInt8.ofNat x⟩) t := by
    intro xs t
    rw [pciRun, List.foldl_map, List.foldl_filter]
  have scsi : ∀ t : PciTable, (if (List.range coModuleMaxCoscsi).any c.scsiDevs then
      pciSpaceAdd t 0 ⟨pciDeviceScsi, 0⟩ else t) = pciRun (scsiRequests c) t := by
    intro t
    rw [scsiRequests]
    split <;> rfl
  rw [coPciSetconfig, video, scsi, pciRequests, pciRun_append, pciRun_append]
  exact foldl_addNetwork c.netDevs _ _ 0

theorem request_bounds {c : PciConfig} {r : PciRequest} (h : r ∈ pciRequests c) :
    r.func < copciMaxFuncs ∧ r.unit.type ≠ 0 := by
  rcases List.mem_append.mp h with video | h
  · obtain ⟨x, -, rfl⟩ := List.mem_map.mp video
    exact ⟨(by decide : 0 < copciMaxFuncs), (by decide : pciDeviceVideo ≠ 0)⟩
  · rcases List.mem_append.mp h with scsi | network
    · rw [scsiRequests] at scsi
      split at scsi
      · obtain rfl := List.mem_singleton.mp scsi
        decide
      · cases scsi
    · obtain ⟨n, -, rfl⟩ := List.mem_map.mp network
      exact ⟨Nat.mod_lt n.2 (by decide), (by decide : pciDeviceNetwork ≠ 0)⟩

/-! ## The table by slots -/

/-- The used slots of a table. -/
def pciSlots (t : PciTable) : SlotTable (Nat × Nat) PciFunction := fun s =>
  if s.1 < copciMaxSlots ∧ s.2 < copciMaxFuncs ∧ (t s.1 s.2).type ≠ 0 then some (t s.1 s.2)
  else none

theorem pciSlots_eq_some {t : PciTable} {s : Nat × Nat} {f : PciFunction} :
    pciSlots t s = some f ↔
      s.1 < copciMaxSlots ∧ s.2 < copciMaxFuncs ∧ f.type ≠ 0 ∧ t s.1 s.2 = f := by
  rw [pciSlots]
  constructor
  · intro h
    split at h
    · next used =>
      cases h
      exact ⟨used.1, used.2.1, used.2.2, rfl⟩
    · cases h
  · rintro ⟨dev, func, used, rfl⟩
    rw [if_pos ⟨dev, func, used⟩]

theorem pciSlots_eq_none {t : PciTable} {x y : Nat} (hx : x < copciMaxSlots)
    (hy : y < copciMaxFuncs) : pciSlots t (x, y) = none ↔ (t x y).type = 0 := by
  rw [pciSlots]
  by_cases unused : (t x y).type = 0
  · simp [unused]
  · simp [unused, hx, hy]

/-- What the guest reads are the used slots. -/
theorem mem_coPciRequest {t : PciTable} {e : CopciConfig} :
    e ∈ coPciRequest t ↔ pciSlots t (e.dev, e.func) = some e.function := by
  obtain ⟨x, y, f⟩ := e
  rw [pciSlots_eq_some]
  simp only [coPciRequest, List.mem_flatMap, List.mem_map, List.mem_filter, List.mem_range,
    CopciConfig.mk.injEq, decide_eq_true_eq]
  constructor
  · rintro ⟨x', hx, y', ⟨hy, used⟩, rfl, rfl, rfl⟩
    exact ⟨hx, hy, used, rfl⟩
  · rintro ⟨hx, hy, used, rfl⟩
    exact ⟨x, hx, y, ⟨hy, used⟩, rfl, rfl, rfl⟩

theorem mem_pciUnits {t : PciTable} {f : PciFunction} :
    f ∈ pciUnits t ↔ (pciSlots t).Holds f := by
  rw [pciUnits, List.mem_map]
  constructor
  · rintro ⟨e, mem, rfl⟩
    exact ⟨(e.dev, e.func), mem_coPciRequest.mp mem⟩
  · rintro ⟨s, here⟩
    exact ⟨⟨s.1, s.2, f⟩, mem_coPciRequest.mpr here, rfl⟩

theorem pciSpaceFind_iff {t : PciTable} {f : PciFunction} (used : f.type ≠ 0) :
    pciSpaceFind t f = true ↔ (pciSlots t).Holds f := by
  simp only [pciSpaceFind, List.any_eq_true, List.mem_range, decide_eq_true_eq]
  constructor
  · rintro ⟨x, hx, y, hy, here⟩
    exact ⟨(x, y), pciSlots_eq_some.mpr ⟨hx, hy, used, here⟩⟩
  · rintro ⟨s, here⟩
    obtain ⟨hx, hy, -, same⟩ := pciSlots_eq_some.mp here
    exact ⟨s.1, hx, s.2, hy, same⟩

theorem pciSlots_set {t : PciTable} {x y : Nat} {f : PciFunction} (hx : x < copciMaxSlots)
    (hy : y < copciMaxFuncs) (used : f.type ≠ 0) :
    pciSlots (t.set x y f) = Function.update (pciSlots t) (x, y) (some f) := by
  funext s
  obtain ⟨i, j⟩ := s
  by_cases here : i = x ∧ j = y
  · obtain ⟨rfl, rfl⟩ := here
    rw [Function.update_self, pciSlots_eq_some]
    exact ⟨hx, hy, used, if_pos ⟨rfl, rfl⟩⟩
  · have other : (i, j) ≠ (x, y) := fun same => here (Prod.mk.inj same)
    rw [Function.update_of_ne other]
    simp only [pciSlots, PciTable.set, if_neg here]

theorem pciSpaceSlot_bounds {t : PciTable} {func : Nat} {f : PciFunction} {s : Nat × Nat}
    (small : func < copciMaxFuncs) (h : pciSpaceSlot t func f = some s) :
    s.1 < copciMaxSlots ∧ s.2 < copciMaxFuncs := by
  rw [pciSpaceSlot] at h
  split at h
  · cases h
  · next x found =>
    have inside := List.mem_range.mp (List.mem_of_find?_eq_some found)
    split at h
    · cases h
    · cases h
      refine ⟨inside, ?_⟩
      split
      · exact (by decide : 0 < copciMaxFuncs)
      · exact small

/-- The calls store their units. -/
theorem pciRun_stores (rs : List PciRequest) (t : PciTable)
    (valid : ∀ r ∈ rs, r.func < copciMaxFuncs ∧ r.unit.type ≠ 0) :
    SlotTable.Stores (pciSlots t) (rs.map PciRequest.unit) (pciWritten rs t)
      (pciSlots (pciRun rs t)) := by
  induction rs generalizing t with
  | nil => exact .nil _
  | cons r rs ih =>
    obtain ⟨⟨small, used⟩, valid⟩ := List.forall_mem_cons.mp valid
    have rest := ih (pciSpaceAdd t r.func r.unit) valid
    rw [List.map_cons, pciWritten]
    change SlotTable.Stores _ _ _ (pciSlots (pciRun rs (pciSpaceAdd t r.func r.unit)))
    by_cases held : pciSpaceFind t r.unit = true
    · have nowhere : pciSpaceSlot t r.func r.unit = none := by
        rw [pciSpaceSlot]
        split
        · rfl
        · rw [if_pos held]
      rw [pciSpaceAdd, nowhere] at rest
      rw [pciSpaceAdd, nowhere]
      exact .held ((pciSpaceFind_iff used).mp held) rest
    · have new : ¬ (pciSlots t).Holds r.unit := fun h => held ((pciSpaceFind_iff used).mpr h)
      cases slot : pciSpaceSlot t r.func r.unit with
      | none =>
        rw [pciSpaceAdd, slot] at rest
        rw [pciSpaceAdd, slot]
        exact .lost new rest
      | some s =>
        obtain ⟨hx, hy⟩ := pciSpaceSlot_bounds small slot
        rw [pciSpaceAdd, slot] at rest
        rw [pciSpaceAdd, slot]
        simp only [pciSlots_set hx hy used] at rest
        exact .stored s new rest

/-! ## The fixup -/

/-- The used functions below a number. -/
def usedBelow (row : Nat → PciFunction) (n : Nat) : List PciFunction :=
  ((List.range n).map row).filter fun f => f.type ≠ 0

/-- The functions that are used. -/
def usedFunctions (row : Nat → PciFunction) : List PciFunction := usedBelow row copciMaxFuncs

/-- The functions of a device as the guest sees them: they are numbered from 0 on, in order, if
function 0 is not used. -/
def settledDevice (row : Nat → PciFunction) : Nat → PciFunction :=
  if (row 0).type = 0 then fun y => (usedFunctions row).getD y ⟨0, 0⟩ else row

/-- Two devices with the same functions. -/
def SameUsed (row row' : Nat → PciFunction) : Prop :=
  ∀ y < copciMaxFuncs, (row y).type = 0 ∧ (row' y).type = 0 ∨ row y = row' y

theorem usedBelow_succ (row : Nat → PciFunction) (n : Nat) :
    usedBelow row (n + 1) = usedBelow row n ++ if (row n).type = 0 then [] else [row n] := by
  rw [usedBelow, List.range_succ, List.map_append, List.filter_append]
  by_cases unused : (row n).type = 0
  · simp [usedBelow, unused]
  · simp [usedBelow, unused]

/-- How far the fixup of a device has come that does not use function 0. -/
structure FixupAt (row : Nat → PciFunction) (n : Nat) (s : (Nat → PciFunction) × Nat) : Prop where
  z : s.2 = (usedBelow row n).length
  small : s.2 ≤ n - 1
  moved : ∀ f (h : f < (usedBelow row n).length), s.1 f = (usedBelow row n)[f]
  gap : ∀ f, s.2 ≤ f → f < n → (s.1 f).type = 0
  rest : ∀ f, n ≤ f → s.1 f = row f

theorem fixupFunction_at {row : Nat → PciFunction} (unused : (row 0).type = 0) {n : Nat}
    {s : (Nat → PciFunction) × Nat} (h : FixupAt row n s) :
    FixupAt row (n + 1) (fixupFunction s n) := by
  obtain ⟨z, small, moved, gap, rest⟩ := h
  have used := usedBelow_succ row n
  rw [fixupFunction, rest n (Nat.le_refl n)]
  by_cases absent : (row n).type = 0
  · rw [if_pos absent, List.append_nil] at used
    rw [if_pos absent]
    refine ⟨used ▸ z, by omega, used ▸ moved, fun f ge lt => ?_, fun f le => rest f (by omega)⟩
    rcases Nat.lt_succ_iff_lt_or_eq.mp lt with below | rfl
    · exact gap f ge below
    · rw [rest f (Nat.le_refl f)]
      exact absent
  · have nonzero : n ≠ 0 := by
      rintro rfl
      exact absent unused
    have free : (s.1 s.2).type = 0 := gap s.2 (Nat.le_refl _) (by omega)
    rw [if_neg absent] at used
    rw [if_neg absent, if_pos ⟨nonzero, free⟩]
    have length : (usedBelow row (n + 1)).length = s.2 + 1 := by
      rw [used, List.length_append, ← z, List.length_singleton]
    refine ⟨length.symm, by simp only; omega, fun f h => ?_, fun f ge lt => ?_, fun f le => ?_⟩
    · rw [length] at h
      have below : f ≠ n := by omega
      simp only [Function.update_of_ne below, used]
      by_cases last : f = s.2
      · subst last
        rw [Function.update_self, List.getElem_append_right (Nat.le_of_eq z.symm)]
        simp
      · have first : f < (usedBelow row n).length := by omega
        rw [Function.update_of_ne last, List.getElem_append_left first]
        exact moved f first
    · simp only at ge ⊢
      by_cases here : f = n
      · rw [here, Function.update_self]
      · rw [Function.update_of_ne here, Function.update_of_ne (by omega)]
        exact gap f (by omega) (by omega)
    · simp only
      rw [Function.update_of_ne (by omega), Function.update_of_ne (by omega)]
      exact rest f (by omega)

theorem fixupDevice_sameUsed (row : Nat → PciFunction) :
    SameUsed (fixupDevice row) (settledDevice row) := by
  by_cases unused : (row 0).type = 0
  · have come : ∀ n, FixupAt row n ((List.range n).foldl fixupFunction (row, 0)) := by
      intro n
      induction n with
      | zero =>
        exact ⟨rfl, Nat.zero_le _, fun f h => absurd h (Nat.not_lt_zero f),
          fun f _ h => absurd h (Nat.not_lt_zero f), fun f _ => rfl⟩
      | succ n ih =>
        rw [List.range_succ, List.foldl_append]
        exact fixupFunction_at unused ih
    obtain ⟨z, -, moved, gap, -⟩ := come copciMaxFuncs
    intro y hy
    rw [settledDevice, if_pos unused, fixupDevice]
    generalize (List.range copciMaxFuncs).foldl fixupFunction (row, 0) = s at *
    by_cases inside : y < (usedFunctions row).length
    · refine .inr ((moved y inside).trans ?_)
      exact (List.getD_eq_getElem (usedFunctions row) ⟨0, 0⟩ inside).symm
    · have outside : (usedFunctions row).length ≤ y := Nat.not_lt.mp inside
      refine .inl ⟨gap y (Nat.le_trans (Nat.le_of_eq z) outside) hy, ?_⟩
      rw [List.getD_eq_default _ _ outside]
  · have same : ∀ ys : List Nat, ys.foldl fixupFunction (row, 0) = (row, 0) := by
      intro ys
      induction ys with
      | nil => rfl
      | cons y ys ih =>
        have turn : fixupFunction (row, 0) y = (row, 0) := by
          rw [fixupFunction]
          split
          · rfl
          · rw [if_neg fun h => unused h.2]
        rw [List.foldl_cons, turn, ih]
    intro y _
    rw [fixupDevice, same, settledDevice, if_neg unused]
    exact .inr rfl

theorem pciSlots_fixup (pci : PciTable) :
    pciSlots (fun x => fixupDevice (pci x)) = pciSlots fun x => settledDevice (pci x) := by
  funext s
  by_cases hy : s.2 < copciMaxFuncs
  · rcases fixupDevice_sameUsed (pci s.1) s.2 hy with ⟨unused, unused'⟩ | same
    · simp [pciSlots, unused, unused']
    · simp [pciSlots, same]
  · simp [pciSlots, hy]

theorem used_of_mem_usedBelow {row : Nat → PciFunction} {n : Nat} {f : PciFunction}
    (h : f ∈ usedBelow row n) : f.type ≠ 0 := of_decide_eq_true (List.mem_filter.mp h).2

theorem usedFunctions_settledDevice (row : Nat → PciFunction) :
    usedFunctions (settledDevice row) = usedFunctions row := by
  rw [settledDevice]
  split
  · have front : ∀ n, usedBelow (fun y => (usedFunctions row).getD y ⟨0, 0⟩) n =
        (usedFunctions row).take n := by
      intro n
      induction n with
      | zero => rfl
      | succ n ih =>
        rw [usedBelow_succ, ih, List.take_add_one]
        congr 1
        by_cases inside : n < (usedFunctions row).length
        · have used := used_of_mem_usedBelow (List.getElem_mem inside)
          simp [List.getElem?_eq_getElem inside, used]
        · have outside := Nat.not_lt.mp inside
          simp [List.getElem?_eq_none outside]
    rw [usedFunctions, front, List.take_of_length_le]
    exact Nat.le_trans (List.length_filter_le _ _) (by simp)
  · rfl

theorem pciUnits_eq (t : PciTable) :
    pciUnits t = (List.range copciMaxSlots).flatMap fun x => usedFunctions (t x) := by
  rw [pciUnits, coPciRequest, List.map_flatMap]
  congr 1
  funext x
  rw [List.map_map, usedFunctions, usedBelow, List.filter_map]
  rfl

theorem pciUnits_settled (pci : PciTable) :
    pciUnits (fun x => settledDevice (pci x)) = pciUnits pci := by
  simp only [pciUnits_eq, usedFunctions_settledDevice]

theorem coPciRequest_nodup (t : PciTable) : (coPciRequest t).Nodup := by
  rw [coPciRequest, List.nodup_flatMap]
  constructor
  · intro x _
    refine List.Nodup.map ?_ ((List.nodup_range).filter _)
    intro y y' same
    exact congrArg CopciConfig.func same
  · refine List.nodup_range.imp fun {x x'} other => ?_
    intro e mem mem'
    obtain ⟨y, -, rfl⟩ := List.mem_map.mp mem
    obtain ⟨y', -, same⟩ := List.mem_map.mp mem'
    exact other (congrArg CopciConfig.dev same).symm

/-- No unit is in two slots if the list of the units has none twice. -/
theorem single_iff_nodup (t : PciTable) : (pciSlots t).Single ↔ (pciUnits t).Nodup := by
  rw [pciUnits, List.nodup_map_iff_inj_on (coPciRequest_nodup t)]
  constructor
  · intro single e mem e' mem' same
    have slot := single _ _ _ (mem_coPciRequest.mp mem)
      (same ▸ mem_coPciRequest.mp mem')
    cases e
    cases e'
    cases slot
    cases same
    rfl
  · intro distinct s s' u here there
    have same := distinct ⟨s.1, s.2, u⟩ (mem_coPciRequest.mpr here) ⟨s'.1, s'.2, u⟩
      (mem_coPciRequest.mpr there) rfl
    exact Prod.ext (congrArg CopciConfig.dev same) (congrArg CopciConfig.func same)

/-! ## The assignment -/

/-- The slots of the user's units. -/
def userSlots (pci : PciTable) : SlotTable (Nat × Nat) PciFunction :=
  pciSlots fun x => settledDevice (pci x)

theorem holds_userSlots {pci : PciTable} {f : PciFunction} :
    (userSlots pci).Holds f ↔ f ∈ pciUnits pci := by
  rw [userSlots, ← mem_pciUnits, pciUnits_settled]

/-- The units that the calls add. -/
def addedUnits (c : PciConfig) : List PciFunction := (pciRequests c).map PciRequest.unit

theorem addedUnits_eq (c : PciConfig) :
    addedUnits c = ((List.range coModuleMaxCovideo).filter c.videoDevs).map
        (fun x => ⟨pciDeviceVideo, UInt8.ofNat x⟩) ++
      ((if (List.range coModuleMaxCoscsi).any c.scsiDevs then [⟨pciDeviceScsi, 0⟩] else []) ++
      ((List.range coModuleMaxConet).filter c.netDevs).map
        (fun x => ⟨pciDeviceNetwork, UInt8.ofNat x⟩)) := by
  have network : (networkRequests c).map PciRequest.unit =
      ((List.range coModuleMaxConet).filter c.netDevs).map
        (fun x => ⟨pciDeviceNetwork, UInt8.ofNat x⟩) := by
    generalize h : (List.range coModuleMaxConet).filter c.netDevs = xs
    rw [networkRequests, h, List.map_map, ← List.zipIdx_map_fst 0 xs, List.map_map,
      List.zipIdx_map_fst]
    rfl
  rw [addedUnits, pciRequests, List.map_append, List.map_append, network, videoRequests,
    List.map_map, scsiRequests, apply_ite (List.map PciRequest.unit)]
  rfl

theorem map_unit_nodup (type : UInt8) (p : Nat → Bool) {n : Nat} (small : n ≤ 256) :
    (((List.range n).filter p).map fun x => (⟨type, UInt8.ofNat x⟩ : PciFunction)).Nodup := by
  refine List.Nodup.map_on (fun x hx y hy same => ?_) (List.nodup_range.filter p)
  have xLt := List.mem_range.mp (List.mem_filter.mp hx).1
  have yLt := List.mem_range.mp (List.mem_filter.mp hy).1
  have units := congrArg (fun f : PciFunction => f.unit.toNat) same
  simp only [UInt8.toNat_ofNat'] at units
  omega

theorem addedUnits_nodup (c : PciConfig) : (addedUnits c).Nodup := by
  rw [addedUnits_eq]
  refine List.Nodup.append (map_unit_nodup _ _ (by decide)) (List.Nodup.append ?_
    (map_unit_nodup _ _ (by decide)) ?_) ?_
  · split
    · exact List.nodup_singleton _
    · exact List.nodup_nil
  · intro f scsi network
    obtain ⟨x, -, rfl⟩ := List.mem_map.mp network
    split at scsi
    · exact absurd (congrArg PciFunction.type (List.mem_singleton.mp scsi))
        (by decide : pciDeviceNetwork ≠ pciDeviceScsi)
    · cases scsi
  · intro f video others
    obtain ⟨x, -, rfl⟩ := List.mem_map.mp video
    rcases List.mem_append.mp others with scsi | network
    · split at scsi
      · exact absurd (congrArg PciFunction.type (List.mem_singleton.mp scsi))
          (by decide : pciDeviceVideo ≠ pciDeviceScsi)
      · cases scsi
    · obtain ⟨y, -, same⟩ := List.mem_map.mp network
      exact absurd (congrArg PciFunction.type same) (by decide : pciDeviceNetwork ≠ pciDeviceVideo)

/-- The wanted units are those of the user and those that are added. -/
theorem wanted_iff (c : PciConfig) (f : PciFunction) :
    Wanted c f ↔ (userSlots c.pci).Holds f ∨ f ∈ addedUnits c := by
  rw [holds_userSlots, addedUnits_eq]
  simp only [List.mem_append, List.mem_map, List.mem_filter, List.mem_range]
  constructor
  · rintro (user | ⟨hx, enabled⟩ | ⟨hx, enabled⟩ | ⟨hx, enabled⟩)
    · exact .inl user
    · exact .inr (.inl ⟨_, ⟨hx, enabled⟩, rfl⟩)
    · have some : (List.range coModuleMaxCoscsi).any c.scsiDevs = true :=
        List.any_eq_true.mpr ⟨_, List.mem_range.mpr hx, enabled⟩
      rw [if_pos some]
      exact .inr (.inr (.inl (List.mem_singleton_self _)))
    · exact .inr (.inr (.inr ⟨_, ⟨hx, enabled⟩, rfl⟩))
  · rintro (user | ⟨x, ⟨hx, enabled⟩, rfl⟩ | scsi | ⟨x, ⟨hx, enabled⟩, rfl⟩)
    · exact .user user
    · exact .video hx enabled
    · split at scsi
      · next some =>
        obtain ⟨x, hx, enabled⟩ := List.any_eq_true.mp some
        obtain rfl := List.mem_singleton.mp scsi
        exact .scsi (List.mem_range.mp hx) enabled
      · cases scsi
    · exact .network hx enabled

theorem pciWritten_bounds (rs : List PciRequest) (t : PciTable)
    (valid : ∀ r ∈ rs, r.func < copciMaxFuncs) :
    ∀ s ∈ pciWritten rs t, s.1 < copciMaxSlots ∧ s.2 < copciMaxFuncs := by
  induction rs generalizing t with
  | nil => exact fun s mem => absurd mem List.not_mem_nil
  | cons r rs ih =>
    obtain ⟨small, valid⟩ := List.forall_mem_cons.mp valid
    intro s mem
    rcases List.mem_append.mp mem with first | later
    · exact pciSpaceSlot_bounds small (Option.mem_toList.mp first)
    · exact ih _ valid s later

/-- What `co_pci_setconfig` has to do, by slots. -/
theorem pciAssigned_exact (c : PciConfig) :
    PciAssigned c ↔ SlotTable.Exact (userSlots c.pci) (addedUnits c)
      (pciWritten (pciRequests c) fun x => fixupDevice (c.pci x))
      (pciSlots (coPciSetconfig c)) := by
  have stores := pciRun_stores (pciRequests c) (fun x => fixupDevice (c.pci x))
    fun r mem => request_bounds mem
  have bounds := pciWritten_bounds (pciRequests c) (fun x => fixupDevice (c.pci x))
    fun r mem => (request_bounds mem).1
  rw [← coPciSetconfig_eq, pciSlots_fixup] at stores
  constructor
  · rintro ⟨units, -, -, once, free⟩
    refine ⟨fun f wanted => ?_, once, fun s mem => ?_⟩
    · obtain ⟨e, ⟨mem, rfl⟩, only⟩ := units f ((wanted_iff c f).mpr wanted)
      refine ⟨(e.dev, e.func), mem_coPciRequest.mp mem, fun s here => ?_⟩
      have same := only ⟨s.1, s.2, e.function⟩ ⟨mem_coPciRequest.mpr here, rfl⟩
      rw [← same]
    · obtain ⟨hx, hy, unused⟩ := free s mem
      rw [userSlots, ← pciSlots_fixup]
      exact (pciSlots_eq_none hx hy).mpr unused
  · rintro ⟨units, once, free⟩
    refine ⟨fun f wanted => ?_, fun e mem => ?_, fun e mem => ?_, once, fun s mem => ?_⟩
    · obtain ⟨s, here, only⟩ := units f ((wanted_iff c f).mp wanted)
      refine ⟨⟨s.1, s.2, f⟩, ⟨mem_coPciRequest.mpr here, rfl⟩, ?_⟩
      rintro ⟨x, y, f'⟩ ⟨mem, rfl⟩
      have same := only (x, y) (mem_coPciRequest.mp mem)
      rw [← same]
    · exact (wanted_iff c e.function).mpr (stores.holds ⟨_, mem_coPciRequest.mp mem⟩)
    · obtain ⟨hx, hy, -, -⟩ := pciSlots_eq_some.mp (mem_coPciRequest.mp mem)
      exact ⟨hx, hy⟩
    · obtain ⟨hx, hy⟩ := bounds s mem
      have unused := free s mem
      rw [userSlots, ← pciSlots_fixup] at unused
      obtain ⟨x, y⟩ := s
      exact ⟨hx, hy, (@pciSlots_eq_none (fun x => fixupDevice (c.pci x)) x y hx hy).mp unused⟩

end CoLinux
