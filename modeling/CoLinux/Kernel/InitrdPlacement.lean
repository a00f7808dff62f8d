import CoLinux.Kernel.Proofs.MonitorCreate
import CoLinux.Kernel.Proofs.RamLoad

/-!
# The place of the initrd (`load_initrd`)

`load_initrd` counts the pages of the image, subtracts them from the end of RAM and compares the
result with the end of the kernel, all in 32 bits. The number of pages and the subtraction are
exact for every image that is smaller than `end_physical`; the comparison is exact when
`core_end + 0x100000` is a 32 bit number. Every other image or kernel gets a wrong place.
-/

namespace CoLinux

open Lib

namespace Cmon

/-- `load_initrd` goes on to copy the image. -/
def AcceptsInitrd (c : Cmon) (size : Nat) : Prop :=
  c.monitor.state = .initialized ∧
    (c.monitor.coreEnd + 0x100000) % wordSize <
      initrdAddress c.monitor.guest.memorySize size

instance (c : Cmon) (size : Nat) : Decidable (c.AcceptsInitrd size) :=
  inferInstanceAs (Decidable (_ ∧ _))

/-- The image goes to `[address, address + size)`, which lies in RAM more than 1 MB above the
kernel, and that range is what the guest will be told. -/
structure InitrdPlaced (c : Cmon) (size : Nat) (data : Nat → UInt8) (address : Nat) : Prop where
  copied : (c.loadInitrd size data).2.world =
    (coMonitorCopyRegion address size (some data) c.world).2
  aboveCore : c.monitor.coreEnd + 0x100000 < address
  inRam : address + size ≤ c.monitor.guest.endPhysical
  aligned : address % coArchPageSize = 0
  recorded : (c.loadInitrd size data).1 = .ok →
    (c.loadInitrd size data).2.monitor.initrdAddress = address ∧
      (c.loadInitrd size data).2.monitor.initrdSize = size

/-- The widths of the fields that `load_initrd` computes with, and how `end_physical` is filled
in. -/
structure InitrdWords (c : Cmon) (size : Nat) : Prop where
  size : size < wordSize
  memorySize : c.monitor.guest.memorySize < wordSize
  coreEnd : c.monitor.coreEnd < wordSize
  endPhysical : c.monitor.guest.endPhysical =
    (coArchKernelOffset + c.monitor.guest.memorySize) % wordSize

variable {c : Cmon} {size : Nat} {data : Nat → UInt8}

/-- The address in terms of `end_physical`: a subtraction that may wrap. -/
theorem initrdAddress_eq (words : c.InitrdWords size) :
    initrdAddress c.monitor.guest.memorySize size =
      (c.monitor.guest.endPhysical + wordSize -
        (size + coArchPageSize) % wordSize / coArchPageSize * coArchPageSize) % wordSize := by
  have memory := words.memorySize
  rw [words.endPhysical, initrdAddress]
  simp only [coArchKernelOffset, coArchPageSize, wordSize] at *
  omega

/-- Where the computation is exact. -/
theorem initrdAddress_exact (words : c.InitrdWords size)
    (aligned : c.monitor.guest.memorySize % coArchPageSize = 0)
    (small : size < c.monitor.guest.endPhysical) :
    initrdAddress c.monitor.guest.memorySize size + (size / coArchPageSize + 1) * coArchPageSize =
      c.monitor.guest.endPhysical := by
  have endPhysical := words.endPhysical
  rw [initrdAddress_eq words]
  simp only [coArchKernelOffset, coArchPageSize, wordSize] at *
  omega

/-- An image that does not fit below the end of RAM is given a range that ends above it. -/
theorem initrdAddress_high (words : c.InitrdWords size)
    (aligned : c.monitor.guest.memorySize % coArchPageSize = 0)
    (large : c.monitor.guest.endPhysical ≤ size) :
    c.monitor.guest.endPhysical < initrdAddress c.monitor.guest.memorySize size + size := by
  have endPhysical := words.endPhysical
  have word := words.size
  rw [initrdAddress_eq words]
  simp only [coArchKernelOffset, coArchPageSize, wordSize] at *
  omega

theorem loadInitrd_of_accepted (accepted : c.AcceptsInitrd size) :
    c.loadInitrd size data =
      let address := initrdAddress c.monitor.guest.memorySize size
      (c.withWorld (coMonitorCopyRegion address size (some data))).andThen fun c =>
        (.ok, { c with monitor := { c.monitor with
          initrdAddress := address, initrdSize := size } }) := by
  obtain ⟨state, above⟩ := accepted
  unfold loadInitrd
  rw [if_neg (by simp [state]), if_neg (Nat.not_le.mpr above)]

theorem loadInitrd_world (accepted : c.AcceptsInitrd size) :
    (c.loadInitrd size data).2.world =
      (coMonitorCopyRegion (initrdAddress c.monitor.guest.memorySize size) size (some data)
        c.world).2 := by
  rw [loadInitrd_of_accepted accepted]
  dsimp only
  by_cases ok : (c.withWorld (coMonitorCopyRegion
    (initrdAddress c.monitor.guest.memorySize size) size (some data))).1 = .ok
  · rw [Step.andThen_of_ok ok]
    rfl
  · rw [Step.andThen_of_ne ok]
    rfl

theorem loadInitrd_recorded (accepted : c.AcceptsInitrd size)
    (ok : (c.loadInitrd size data).1 = .ok) :
    (c.loadInitrd size data).2.monitor.initrdAddress =
        initrdAddress c.monitor.guest.memorySize size ∧
      (c.loadInitrd size data).2.monitor.initrdSize = size := by
  rw [loadInitrd_of_accepted accepted] at ok ⊢
  dsimp only at ok ⊢
  by_cases copied : (c.withWorld (coMonitorCopyRegion
    (initrdAddress c.monitor.guest.memorySize size) size (some data))).1 = .ok
  · rw [Step.andThen_of_ok copied]
    exact ⟨rfl, rfl⟩
  · rw [Step.andThen_of_ne copied] at ok
    exact absurd ok copied

/-- A request that succeeds was accepted. -/
theorem loadInitrd_accepted (ok : (c.loadInitrd size data).1 = .ok) : c.AcceptsInitrd size := by
  unfold loadInitrd at ok
  dsimp only at ok
  by_cases state : c.monitor.state = .initialized
  · rw [if_neg (by simp [state])] at ok
    by_cases low : initrdAddress c.monitor.guest.memorySize size ≤
        (c.monitor.coreEnd + 0x100000) % wordSize
    · rw [if_pos low] at ok
      exact absurd ok (by simp)
    · exact ⟨state, Nat.lt_of_not_le low⟩
  · rw [if_pos state] at ok
    exact absurd ok (by simp)

/-- An accepted image is placed right exactly when RAM is a whole number of pages, the image is
smaller than `end_physical` and the comparison with the end of the kernel does not wrap. -/
theorem loadInitrd_placed_iff (words : c.InitrdWords size) (accepted : c.AcceptsInitrd size)
    (data : Nat → UInt8) :
    InitrdPlaced c size data (initrdAddress c.monitor.guest.memorySize size) ↔
      c.monitor.guest.memorySize % coArchPageSize = 0 ∧ size < c.monitor.guest.endPhysical ∧
        c.monitor.coreEnd + 0x100000 < wordSize := by
  have top : initrdAddress c.monitor.guest.memorySize size < wordSize :=
    Nat.mod_lt _ (by decide)
  constructor
  · rintro ⟨-, above, inRam, aligned, -⟩
    have whole : c.monitor.guest.memorySize % coArchPageSize = 0 := by
      have endPhysical := words.endPhysical
      rw [initrdAddress_eq words] at aligned
      simp only [coArchKernelOffset, coArchPageSize, wordSize] at *
      omega
    refine ⟨whole, ?_, Nat.lt_trans above top⟩
    by_contra large
    have past := initrdAddress_high words whole (Nat.le_of_not_lt large)
    exact absurd inRam (Nat.not_le.mpr past)
  · rintro ⟨whole, small, core⟩
    have exact' := initrdAddress_exact words whole small
    have endPhysical := words.endPhysical
    refine ⟨loadInitrd_world accepted, ?_, ?_, ?_, loadInitrd_recorded accepted⟩
    · rw [← Nat.mod_eq_of_lt core]
      exact accepted.2
    · simp only [coArchPageSize] at *
      omega
    · simp only [coArchKernelOffset, coArchPageSize, wordSize] at *
      omega

/-- The image is then in the guest's RAM when the request succeeds, for a kernel that is in RAM. -/
theorem loadInitrd_ramStored (ready : RamReady c.world) (ok : (c.loadInitrd size data).1 = .ok)
    (core : coArchKernelOffset ≤ c.monitor.coreEnd + 0x100000)
    (placed : InitrdPlaced c size data (initrdAddress c.monitor.guest.memorySize size)) :
    RamStored c.world
      (storedRange (initrdAddress c.monitor.guest.memorySize size) size data)
      (c.loadInitrd size data).2.world := by
  have accepted := loadInitrd_accepted ok
  rw [loadInitrd_of_accepted accepted] at ok
  dsimp only at ok
  have copied : (coMonitorCopyRegion (initrdAddress c.monitor.guest.memorySize size) size
      (some data) c.world).1 = .ok := by
    by_contra failed
    have failed' : (c.withWorld (coMonitorCopyRegion
      (initrdAddress c.monitor.guest.memorySize size) size (some data))).1 ≠ .ok := failed
    rw [Step.andThen_of_ne failed'] at ok
    exact failed ok
  have stored := coMonitorCopyRegion_ramStored (some data) ready
    (Nat.le_of_lt (Nat.lt_of_le_of_lt core placed.aboveCore)) placed.inRam copied
  rw [copyRegionBytes, show (fun i => data (0 + i)) = data by simp] at stored
  rwa [placed.copied]

/-! ## Two kernels -/

/-- A monitor of 8 MB for a kernel that ends at `kernelEnd`. -/
def monitorWithKernelEnd (kernelEnd : Nat) : Cmon :=
  (coMonitorCreate grantsAll { plainParams 8 with kernelEnd := kernelEnd } 1 smallHost).2

theorem loadInitrd_placed_iff_plain :
    InitrdPlaced (monitorWithKernelEnd 0xc0400000) 5000 (fun i => UInt8.ofNat i) 0xc07fe000 := by
  have address : initrdAddress (monitorWithKernelEnd 0xc0400000).monitor.guest.memorySize 5000 =
      0xc07fe000 := by decide +kernel
  have words : InitrdWords (monitorWithKernelEnd 0xc0400000) 5000 :=
    ⟨by decide, by decide +kernel, by decide +kernel, by decide +kernel⟩
  have placed := (loadInitrd_placed_iff words (by decide +kernel) fun i => UInt8.ofNat i).mpr
    ⟨by decide +kernel, by decide +kernel, by decide +kernel⟩
  rwa [address] at placed

/-- The sum of `core_end` and 1 MB wraps to 0 for a kernel that ends at `0xfff00000`: an image of
one byte is loaded, below the kernel's end. -/
theorem loadInitrd_belowKernel :
    ((monitorWithKernelEnd 0xfff00000).loadInitrd 1 fun _ => 7).1 = .ok ∧
    ((monitorWithKernelEnd 0xfff00000).loadInitrd 1 fun _ => 7).2.monitor.initrdAddress =
      0xc07ff000 ∧
    ¬ InitrdPlaced (monitorWithKernelEnd 0xfff00000) 1 (fun _ => 7) 0xc07ff000 := by
  refine ⟨by decide +kernel, by decide +kernel, fun placed => ?_⟩
  have above := placed.aboveCore
  revert above
  decide +kernel

end Cmon

end CoLinux
