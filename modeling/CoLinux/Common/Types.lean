import Mathlib.Algebra.Ring.Int.Defs
import Mathlib.Algebra.Ring.Nat

/-!
# Result codes, page geometry and the guest address space layout

`common_base.h`, `arch/i386/mmu.h` and the layout part of the guest's `asm/cooperative.h`.
`unsigned long` is 32 bits wide on every target the driver is built for; the model computes
with `Nat` and writes the reduction modulo `wordSize` wherever the C arithmetic can wrap.
-/

namespace CoLinux

/-- `co_rc_value_t`: the codes of `co_rc_t` without the line and file bits. -/
inductive CoRc where
  | ok
  | error
  | paeEnabled
  | versionMismatched
  | outOfMemory
  | outOfPages
  | notFound
  | cantOpenVmlinuxFile
  | cantStatVmlinuxFile
  | errorReadingVmlinuxFile
  | errorInstallingDriver
  | errorRemovingDriver
  | errorStartingDriver
  | errorStoppingDriver
  | errorAccessingDriver
  | transferOffBounds
  | monitorNotLoaded
  | brokenPipe
  | timeout
  | accessDenied
  | compilerMismatched
  | invalidParameter
  | hostmemUseLimitReached
  | instanceTerminated
  deriving DecidableEq, Repr

/-- A returned `co_rc_t` and the state it was returned in. -/
abbrev Step (σ : Type) := CoRc × σ

/-- `rc = x; if (!CO_OK(rc)) return rc; f`. -/
def Step.andThen {σ : Type} (x : Step σ) (f : σ → Step σ) : Step σ :=
  if x.1 = .ok then f x.2 else x

@[simp] theorem Step.andThen_ok {σ : Type} (s : σ) (f : σ → Step σ) :
    Step.andThen (.ok, s) f = f s := rfl

theorem Step.eq_of_ok {σ : Type} {x : Step σ} (h : x.1 = .ok) : x = (.ok, x.2) :=
  Prod.ext h rfl

theorem Step.andThen_of_ok {σ : Type} {x : Step σ} (h : x.1 = .ok) (f : σ → Step σ) :
    x.andThen f = f x.2 := if_pos h

theorem Step.andThen_of_ne {σ : Type} {x : Step σ} (h : x.1 ≠ .ok) (f : σ → Step σ) :
    x.andThen f = x := if_neg h

/-- `unsigned long` values are taken modulo this. -/
abbrev wordSize : Nat := 4294967296

/-- `unsigned long long` values and the `QuadPart` of a `LARGE_INTEGER` are taken modulo this. -/
def quadSize : Nat := 18446744073709551616

/-! ## Units of each device (`CO_MODULE_MAX_CONET` and so on) -/

abbrev coModuleMaxConet : Nat := 16
abbrev coModuleMaxCobd : Nat := 32
abbrev coModuleMaxCofs : Nat := 32
abbrev coModuleMaxSerial : Nat := 32
abbrev coModuleMaxCoscsi : Nat := 32
abbrev coModuleMaxCovideo : Nat := 2

/-! ## `arch/i386/mmu.h` -/

abbrev coArchPageShift : Nat := 12
abbrev coArchPageSize : Nat := 4096
abbrev ptrsPerPte : Nat := 1024
abbrev ptrsPerPgd : Nat := 1024
abbrev pgdirShift : Nat := 22
abbrev coArchPmdShift : Nat := 22
abbrev coArchPmdSize : Nat := 4194304
abbrev coArchKernelOffset : Nat := 0xc0000000

/-- `_PAGE_PRESENT | _PAGE_RW | _PAGE_DIRTY | _PAGE_ACCESSED`, which is also `_KERNPG_TABLE`. -/
abbrev kernpgTable : Nat := 0x063

/-! ## Guest address space layout -/

abbrev coVptrBase : Nat := 0xffc00000
abbrev coVptrPhysicalToPseudoPfnMap : Nat := coVptrBase - 0x1000000
abbrev coVptrPseudoRamPageTables : Nat := coVptrBase - 0x1100000
abbrev coVptrPassagePage : Nat := coVptrBase - 0x1101000
abbrev coVptrIoAreaSize : Nat := 0x10000
abbrev coVptrIoAreaStart : Nat := coVptrBase - 0x1200000
abbrev coVptrSelfMap : Nat := coVptrBase - 0x1400000

/-- `sizeof(linux_pte_t)`, `sizeof(linux_pgd_t)` and `sizeof(co_pfn_t)`. -/
abbrev sizeofPte : Nat := 4

end CoLinux
