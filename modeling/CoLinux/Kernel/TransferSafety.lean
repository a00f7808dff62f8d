import CoLinux.Kernel.Transfer
import CoLinux.Kernel.Coherence

/-!
# Which frames a transfer maps

The bound checks accept a range whose end wraps past the guest's RAM, and the lookup of a frame
succeeds for a page without one as soon as its group of 1024 pages is there. The results say
for which requests this matters.
-/

namespace CoLinux

open Lib

/-! ## The bound checks -/

/-- Every byte of the range is guest RAM. -/
def InRam (endPhysical vaddr size : Nat) : Prop :=
  ∀ i < size, coArchKernelOffset ≤ vaddr + i ∧ vaddr + i < endPhysical

/-- What the bound checks let through is guest RAM if and only if the range ends less than the
RAM's offset behind the end of the address space, or starts outside of RAM. -/
theorem transferInBounds_inRam_iff (mb : Nat) {vaddr size : Nat} (hv : vaddr < wordSize)
    (hs : size < wordSize) :
    ((TransferInBounds (coArchKernelOffset + adjustedMemorySize mb) vaddr size →
        InRam (coArchKernelOffset + adjustedMemorySize mb) vaddr size) ∧
      (TransferMapInBounds (coArchKernelOffset + adjustedMemorySize mb) vaddr size →
        InRam (coArchKernelOffset + adjustedMemorySize mb) vaddr size)) ↔
      (vaddr < coArchKernelOffset ∨ coArchKernelOffset + adjustedMemorySize mb ≤ vaddr ∨
        vaddr + size < wordSize + coArchKernelOffset) := by
  obtain ⟨n, lo, hi, hn⟩ := adjustedMemorySize_cases mb
  rw [hn]
  unfold TransferMapInBounds TransferInBounds InRam
  rw [pagePart_eq hv]
  simp only [wordSize, coArchKernelOffset] at *
  constructor
  · rintro ⟨accepted, -⟩
    by_contra bad
    obtain ⟨start, inside, wraps⟩ : 0xc0000000 ≤ vaddr ∧ vaddr < 0xc0000000 + n * 1048576 ∧
        4294967296 + 0xc0000000 ≤ vaddr + size := by omega
    have last := (accepted ⟨⟨start, inside⟩, by omega, by omega⟩ (size - 1) (by omega)).2
    omega
  · intro near
    constructor
    · rintro ⟨⟨start, inside⟩, above, below⟩ i hi
      omega
    · rintro ⟨⟨⟨start, inside⟩, above, below⟩, nonempty, onePage⟩ i hi
      omega

theorem transferInBounds_inRam_nearEnd :
    TransferInBounds (coArchKernelOffset + adjustedMemorySize 8) 0xc07ff000 0x1000 ∧
      InRam (coArchKernelOffset + adjustedMemorySize 8) 0xc07ff000 0x1000 := by
  have bounds : TransferInBounds (coArchKernelOffset + adjustedMemorySize 8) 0xc07ff000 0x1000 := by
    decide
  exact ⟨bounds, ((transferInBounds_inRam_iff 8 (by decide) (by decide)).mpr
    (.inr (.inr (by decide)))).1 bounds⟩

/-- In an 8 MB guest, a range of almost 4 GB from its second page on is let through: its end
wraps to the middle of the first page. -/
theorem wrappingRange_not_inRam :
    TransferInBounds (coArchKernelOffset + adjustedMemorySize 8) 0xc0001000 0xfffff800 ∧
      ¬ InRam (coArchKernelOffset + adjustedMemorySize 8) 0xc0001000 0xfffff800 := by
  refine ⟨by decide, fun inRam => ?_⟩
  exact absurd (inRam 0x3fffffff (by decide)).2 (by decide)

/-! ## The transfer loop -/

variable {δ : Type}

/-- One turn of the transfer loop, as a callback of the page splitting loop. -/
def transferTurn (w : World) (func : TransferFunc δ) (vaddr oneCopy : Nat) (s : Transfer δ) :
    Step (Transfer δ) :=
  match coMonitorGetPfn vaddr w with
  | .error rc => (rc, s)
  | .ok pfn => transferPage func pfn vaddr oneCopy s

/-- The group of 1024 pages that the address is in was allocated. -/
def HasGroup (w : World) (address : Nat) : Prop :=
  (w.monitor.ppPfns (address % wordSize / coArchPageSize / ptrsPerPte)).isSome

/-- A frame is recorded for the page of the address. -/
def HasFrame (w : World) (address : Nat) : Prop :=
  w.ppPfn (address % wordSize / coArchPageSize) ≠ 0

theorem coMonitorGetPfn_group {w : World} {a : Nat} (ha : a < wordSize) (h : HasGroup w a) :
    coMonitorGetPfn a w = .ok (w.ppPfn (a / coArchPageSize)) := by
  rw [HasGroup, Nat.mod_eq_of_lt ha] at h
  rw [coMonitorGetPfn, if_neg (by simp [Option.isSome_iff_ne_none.mp h])]

theorem coMonitorGetPfn_noGroup {w : World} {a : Nat} (ha : a < wordSize) (h : ¬ HasGroup w a) :
    coMonitorGetPfn a w = .error .error := by
  rw [HasGroup, Nat.mod_eq_of_lt ha] at h
  rw [coMonitorGetPfn, if_pos (by simpa using h)]

theorem transferTurn_group {w : World} {func : TransferFunc δ} {a n : Nat} {s : Transfer δ}
    (ha : a < wordSize) (h : HasGroup w a) :
    transferTurn w func a n s = transferPage func (w.ppPfn (a / coArchPageSize)) a n s := by
  rw [transferTurn, coMonitorGetPfn_group ha h]

theorem transferTurn_noGroup {w : World} {func : TransferFunc δ} {a n : Nat} {s : Transfer δ}
    (ha : a < wordSize) (h : ¬ HasGroup w a) : transferTurn w func a n s = (.error, s) := by
  rw [transferTurn, coMonitorGetPfn_noGroup ha h]

/-- The transfer loop splits its range the way `co_split_by_pages_and_callback` does. -/
theorem transferLoop_eq (w : World) (func : TransferFunc δ) (fuel : Nat) {vaddr size : Nat}
    (hv : vaddr < wordSize) (s : Transfer δ) :
    transferLoop w func fuel vaddr size s =
      splitLoop (transferTurn w func) fuel vaddr size s := by
  induction fuel generalizing vaddr size s with
  | zero => rfl
  | succ fuel ih =>
    have next (n : Nat) (s : Transfer δ) := @ih ((vaddr + n) % wordSize) (size - n)
      (Nat.mod_lt _ (by decide)) s
    rw [transferLoop, splitLoop]
    by_cases group : HasGroup w vaddr
    · simp only [coMonitorGetPfn_group hv group, transferTurn_group hv group, Step.andThen, next]
    · simp only [coMonitorGetPfn_noGroup hv group, transferTurn_noGroup hv group]
      rfl

theorem coMonitorHostLinuxvmTransfer_inBounds {w : World} {vaddr size : Nat}
    (hv : vaddr < wordSize) (h : TransferInBounds w.monitor.endPhysical vaddr size)
    (func : TransferFunc δ) (hostData : δ) :
    coMonitorHostLinuxvmTransfer func vaddr size hostData w =
      coSplitByPagesAndCallback (transferTurn w func) vaddr size ⟨w.mem, hostData, []⟩ := by
  rw [coMonitorHostLinuxvmTransfer, if_pos h, transferLoop_eq w func size hv]
  rfl

/-! ## The frames it maps -/

/-- Every mapped frame is one the monitor recorded for the page it was mapped for. -/
def Transfer.Own (w : World) (s : Transfer δ) : Prop :=
  ∀ m ∈ s.mapped, m.2 ≠ 0 ∧ w.ppPfn (m.1 / coArchPageSize) = m.2

/-- A page of the range without a frame only comes after an address in a group that was never
allocated, where the transfer stops. -/
def StopsBeforeHole (w : World) (vaddr size : Nat) : Prop :=
  ∀ i < size, (∀ j ≤ i, HasGroup w (vaddr + j)) → HasFrame w (vaddr + i)

/-- The addresses of a piece are on the page of its first address. -/
theorem samePage {vaddr n i : Nat} (hv : vaddr < wordSize) (inPage : vaddr % 4096 + n ≤ 4096)
    (hi : i < n) : (vaddr + i) % wordSize / coArchPageSize = vaddr % wordSize / coArchPageSize := by
  simp only [wordSize, coArchPageSize] at *
  omega

theorem HasGroup.samePage {w : World} {vaddr n i : Nat} (hv : vaddr < wordSize)
    (inPage : vaddr % 4096 + n ≤ 4096) (hi : i < n) (h : HasGroup w vaddr) :
    HasGroup w (vaddr + i) := by
  rw [HasGroup, CoLinux.samePage hv inPage hi]
  exact h

theorem hasFrame_samePage {w : World} {vaddr n i : Nat} (hv : vaddr < wordSize)
    (inPage : vaddr % 4096 + n ≤ 4096) (hi : i < n) :
    HasFrame w (vaddr + i) ↔ HasFrame w vaddr := by
  rw [HasFrame, samePage hv inPage hi, HasFrame]

theorem hasFrame_mod {w : World} {a : Nat} : HasFrame w (a % wordSize) ↔ HasFrame w a := by
  rw [HasFrame, Nat.mod_mod, HasFrame]

theorem hasGroup_mod {w : World} {a : Nat} : HasGroup w (a % wordSize) ↔ HasGroup w a := by
  rw [HasGroup, Nat.mod_mod, HasGroup]

theorem hasFrame_next {w : World} {a n i : Nat} :
    HasFrame w ((a + n) % wordSize + i) ↔ HasFrame w (a + (n + i)) := by
  rw [← hasFrame_mod, Nat.mod_add_mod, hasFrame_mod, Nat.add_assoc]

theorem hasGroup_next {w : World} {a n i : Nat} :
    HasGroup w ((a + n) % wordSize + i) ↔ HasGroup w (a + (n + i)) := by
  rw [← hasGroup_mod, Nat.mod_add_mod, hasGroup_mod, Nat.add_assoc]

/-- The condition on a range is one on its first page and one on the rest of it. -/
theorem stopsBeforeHole_split {w : World} {vaddr n size : Nat} (hv : vaddr < wordSize)
    (pos : 0 < n) (le : n ≤ size) (inPage : vaddr % 4096 + n ≤ 4096) :
    StopsBeforeHole w vaddr size ↔ (HasGroup w vaddr → HasFrame w vaddr ∧
      StopsBeforeHole w ((vaddr + n) % wordSize) (size - n)) := by
  constructor
  · intro h group
    refine ⟨h 0 (by omega) fun j hj => Nat.le_zero.mp hj ▸ group, fun i hi groups => ?_⟩
    rw [hasFrame_next]
    apply h (n + i) (by omega)
    intro j hj
    by_cases first : j < n
    · exact group.samePage hv inPage first
    · have := groups (j - n) (by omega)
      rwa [hasGroup_next, Nat.add_sub_cancel' (by omega)] at this
  · intro h i hi groups
    obtain ⟨frame, rest⟩ := h (groups 0 (Nat.zero_le _))
    by_cases first : i < n
    · exact (hasFrame_samePage hv inPage first).mpr frame
    · have := rest (i - n) (by omega) fun j hj => hasGroup_next.mpr (groups (n + j) (by omega))
      rwa [hasFrame_next, Nat.add_sub_cancel' (by omega)] at this

theorem transferPage_own {w : World} {func : TransferFunc δ} {vaddr n : Nat} {s : Transfer δ}
    (hv : vaddr < wordSize) :
    (transferPage func (w.ppPfn (vaddr / coArchPageSize)) vaddr n s).2.Own w ↔
      s.Own w ∧ HasFrame w vaddr := by
  rw [HasFrame, Nat.mod_eq_of_lt hv]
  simp only [Transfer.Own, transferPage, List.forall_mem_append, List.forall_mem_singleton,
    and_true]

/-- With no page without a frame on its way, the walk maps recorded frames only, and it only
succeeds on a range whose pages all have one. -/
theorem transferTurns_own {w : World} (func : TransferFunc δ) {vaddr size : Nat}
    (hv : vaddr < wordSize) (h : StopsBeforeHole w vaddr size) {s : Transfer δ}
    (own : s.Own w) :
    (coSplitByPagesAndCallback (transferTurn w func) vaddr size s).2.Own w ∧
      ((coSplitByPagesAndCallback (transferTurn w func) vaddr size s).1 = .ok →
        ∀ i < size, HasFrame w (vaddr + i)) := by
  induction size using Nat.strongRecOn generalizing vaddr s with
  | ind size ih =>
    by_cases hs : size = 0
    · subst hs
      exact ⟨own, fun _ i hi => absurd hi (Nat.not_lt_zero i)⟩
    obtain ⟨pos, le, inPage⟩ := partSize_bounds hv hs
    rw [coSplit_turn s hv hs]
    generalize min (pagePart vaddr) size = n at pos le inPage
    rw [stopsBeforeHole_split hv pos le inPage] at h
    by_cases group : HasGroup w vaddr
    · obtain ⟨frame, rest⟩ := h group
      have own' := (@transferPage_own δ w func vaddr n s hv).mpr ⟨own, frame⟩
      rw [transferTurn_group hv group]
      by_cases done : (transferPage func (w.ppPfn (vaddr / coArchPageSize)) vaddr n s).1 = .ok
      · rw [Step.andThen_of_ok done]
        obtain ⟨ownRest, frames⟩ :=
          ih (size - n) (by omega) (Nat.mod_lt _ (by decide)) rest own'
        refine ⟨ownRest, fun ok i hi => ?_⟩
        by_cases first : i < n
        · exact (hasFrame_samePage hv inPage first).mpr frame
        · have := hasFrame_next.mp (frames ok (i - n) (by omega))
          rwa [Nat.add_sub_cancel' (by omega)] at this
      · rw [Step.andThen_of_ne done]
        exact ⟨own', fun ok => absurd ok done⟩
    · rw [transferTurn_noGroup hv group, Step.andThen_of_ne (by simp)]
      exact ⟨own, fun ok => absurd ok (by simp)⟩

/-- A transfer function that moves nothing. -/
def transferNothing : TransferFunc Unit := fun _ _ s => (.ok, s)

/-- A walk that nothing stops but a missing group shows the pages on its way. -/
theorem transferNothing_own {w : World} {vaddr size : Nat} (hv : vaddr < wordSize)
    {s : Transfer Unit}
    (own : (coSplitByPagesAndCallback (transferTurn w transferNothing) vaddr size s).2.Own w) :
    s.Own w ∧ StopsBeforeHole w vaddr size := by
  induction size using Nat.strongRecOn generalizing vaddr s with
  | ind size ih =>
    by_cases hs : size = 0
    · subst hs
      exact ⟨own, fun i hi => absurd hi (Nat.not_lt_zero i)⟩
    obtain ⟨pos, le, inPage⟩ := partSize_bounds hv hs
    rw [coSplit_turn s hv hs] at own
    generalize min (pagePart vaddr) size = n at pos le inPage own
    rw [stopsBeforeHole_split hv pos le inPage]
    by_cases group : HasGroup w vaddr
    · rw [transferTurn_group hv group, Step.andThen_of_ok rfl] at own
      obtain ⟨ownPage, rest⟩ := ih (size - n) (by omega) (Nat.mod_lt _ (by decide)) own
      obtain ⟨ownStart, frame⟩ := (transferPage_own hv).mp ownPage
      exact ⟨ownStart, fun _ => ⟨frame, rest⟩⟩
    · rw [transferTurn_noGroup hv group, Step.andThen_of_ne (by simp)] at own
      exact ⟨own, fun h => absurd h group⟩

/-- What a request may do: a transfer, with any transfer function, maps recorded frames only and
fails when a page of the range has none, and so does `co_monitor_host_linuxvm_transfer_map`. -/
structure MapsOwnFrames (w : World) (vaddr size : Nat) : Prop where
  transfer : ∀ {δ : Type} (func : TransferFunc δ) (hostData : δ),
    (coMonitorHostLinuxvmTransfer func vaddr size hostData w).2.Own w ∧
      ((coMonitorHostLinuxvmTransfer func vaddr size hostData w).1 = .ok →
        ∀ i < size, HasFrame w (vaddr + i))
  transferMap : ∀ pfn, coMonitorHostLinuxvmTransferMap vaddr size w = .ok pfn →
    pfn ≠ 0 ∧ w.ppPfn (vaddr / coArchPageSize) = pfn ∧ ∀ i < size, HasFrame w (vaddr + i)

/-- A request that passes the bound checks maps the monitor's own frames only if and only if no
page without a frame comes before the first missing group. -/
theorem mapsOwnFrames_iff (w : World) {vaddr size : Nat} (hv : vaddr < wordSize) :
    MapsOwnFrames w vaddr size ↔
      (TransferInBounds w.monitor.endPhysical vaddr size → StopsBeforeHole w vaddr size) := by
  constructor
  · rintro ⟨transfer, -⟩ bounds
    have own := (transfer transferNothing ()).1
    rw [coMonitorHostLinuxvmTransfer_inBounds hv bounds] at own
    exact (transferNothing_own hv own).2
  · intro stops
    constructor
    · intro δ func hostData
      by_cases bounds : TransferInBounds w.monitor.endPhysical vaddr size
      · rw [coMonitorHostLinuxvmTransfer_inBounds hv bounds]
        exact transferTurns_own func hv (stops bounds) fun m hm => absurd hm (List.not_mem_nil)
      · rw [coMonitorHostLinuxvmTransfer, if_neg bounds]
        exact ⟨fun m hm => absurd hm (List.not_mem_nil), fun ok => absurd ok (by simp)⟩
    · intro pfn found
      rw [coMonitorHostLinuxvmTransferMap] at found
      split_ifs at found with bounds
      obtain ⟨inBounds, nonempty, onePage⟩ := bounds
      rw [pagePart_eq hv] at onePage
      by_cases group : HasGroup w vaddr
      · rw [coMonitorGetPfn_group hv group] at found
        obtain rfl := Except.ok.inj found
        have frame := stops inBounds 0 (Nat.pos_of_ne_zero nonempty)
          fun j hj => Nat.le_zero.mp hj ▸ group
        refine ⟨?_, rfl, fun i hi =>
          (@hasFrame_samePage w vaddr size i hv (by omega) hi).mpr frame⟩
        rwa [Nat.add_zero, HasFrame, Nat.mod_eq_of_lt hv] at frame
      · rw [coMonitorGetPfn_noGroup hv group] at found
        cases found

/-- The 8 MB guest of `coveredHost` with its first page mapped. -/
def onePageGuest : World :=
  run PageOp.step [.allocAndMap 0xc0000000] (allocPpRamMapping coveredHost).2

theorem mapsOwnFrames_onePageGuest : MapsOwnFrames onePageGuest 0xc0000ff0 16 := by
  refine (mapsOwnFrames_iff onePageGuest (by decide)).mpr fun _ i hi _ => ?_
  rw [HasFrame, show (0xc0000ff0 + i) % wordSize / coArchPageSize = 0xc0000 by
    simp only [wordSize, coArchPageSize]; omega]
  decide +kernel

/-- The second page of that guest is in an allocated group and has no frame: a transfer of 16
bytes of it returns OK and maps host frame 0, and so does the mapping call. -/
theorem onePageGuest_mapsFrameZero :
    (allocPpRamMapping coveredHost).1 = .ok ∧
      (coMonitorHostLinuxvmTransfer transferNothing 0xc0001000 16 () onePageGuest).1 = .ok ∧
      (coMonitorHostLinuxvmTransfer transferNothing 0xc0001000 16 () onePageGuest).2.mapped =
        [(0xc0001000, 0)] ∧
      coMonitorHostLinuxvmTransferMap 0xc0001000 16 onePageGuest = .ok 0 ∧
      ¬ MapsOwnFrames onePageGuest 0xc0001000 16 := by
  have mapped : coMonitorHostLinuxvmTransferMap 0xc0001000 16 onePageGuest = .ok 0 := by
    decide +kernel
  refine ⟨coveredHost_ok, by decide +kernel, by decide +kernel, mapped, fun own => ?_⟩
  exact (own.transferMap 0 mapped).1 rfl

end CoLinux
