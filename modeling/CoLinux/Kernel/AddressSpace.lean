import CoLinux.Kernel.AllocPages
import CoLinux.Kernel.PassageMemory

/-!
# The guest's address space (`guest_address_space_init`)

The driver turns the page of `swapper_pg_dir` into the guest's page directory and fills the
self map, a page table the guest uses to reach the host pages it shares with the driver. The
processor's two-level walk over them is `World.walk`.
-/

namespace CoLinux

open Lib

/-- The processor's walk from the page directory at `cr3`: the frame a guest virtual address
resolves to, or `none` when an entry is not present. -/
def World.walk (w : World) (cr3 address : Nat) : Option Nat :=
  let pde := w.mem.readWord (cr3 + 4 * (address / coArchPmdSize))
  if pde % 2 = 0 then none
  else
    let pte := w.mem.readWord (pde / 4096 * 4096 + 4 * (address / coArchPageSize % ptrsPerPte))
    if pte % 2 = 0 then none else some (pte / 4096)

def World.setPgd (w : World) (pgd : Nat) : World :=
  { w with monitor := { w.monitor with pgd := pgd } }

/-- `cmon->pp_pfns[pp_pagetables_pgd]`, through the pointer the source keeps. -/
def ppPagetablesPfns (w : World) (i : Nat) : Nat :=
  w.ppPfn (coVptrPseudoRamPageTables / coArchPmdSize * ptrsPerPte + i)

/-- The offset of an address's entry in its page table. -/
def pteOffset (address : Nat) : Nat := address % coArchPmdSize / coArchPageSize * sizeofPte

/-- The offset of an address's entry in the page directory. -/
def pgdOffset (address : Nat) : Nat := address / coArchPmdSize * sizeofPte

/-- The loop over the pages of the IO area; the first argument counts what is left. -/
def mapIoBuffer (virtToPhys : Nat → Nat) : Nat → Nat → Nat → World → Step World
  | 0, _, _, w => (.ok, w)
  | n + 1, ioBufferOffset, ioBufferHostAddress, w =>
    (coMonitorCreatePtes (coVptrSelfMap + ioBufferOffset) sizeofPte
      (fun _ _ => virtToPhys ioBufferHostAddress / coArchPageSize) w).andThen
      (mapIoBuffer virtToPhys n (ioBufferOffset + sizeofPte) (ioBufferHostAddress + coArchPageSize))

/-- The part of `guest_address_space_init` after the passage page is there. -/
def initPageTables (virtToPhys : Nat → Nat) (w : World) : Step World :=
  let swapper := w.monitor.kernelSwapperPgDir
  (coMonitorCreatePtes swapper coArchPageSize ppPagetablesPfns w).andThen fun w =>
  (coMonitorCopyAndCreatePfns ((swapper + pgdOffset coVptrPhysicalToPseudoPfnMap) % wordSize)
    (4 * w.manager.reversedMapPgdsCount) (ByteMem.wordsBytes w.manager.reversedMapPgds) w).andThen
    fun w =>
  (coMonitorCreatePtes coVptrSelfMap coArchPageSize ppPagetablesPfns w).andThen fun w =>
  match coMonitorGetPfn coVptrSelfMap w with
  | .error rc => (rc, w)
  | .ok selfMapPfn =>
    (coMonitorCreatePtes ((swapper + pgdOffset coVptrSelfMap) % wordSize) sizeofPte
      (fun _ _ => selfMapPfn) w).andThen fun w =>
    (coMonitorCreatePtes (coVptrSelfMap + pteOffset coVptrPassagePage) sizeofPte
      (fun _ _ => virtToPhys w.monitor.passagePage / coArchPageSize) w).andThen fun w =>
    (coMonitorCreatePtes coVptrSelfMap sizeofPte (fun _ _ => selfMapPfn) w).andThen fun w =>
    mapIoBuffer virtToPhys (coVptrIoAreaSize / coArchPageSize) (pteOffset coVptrIoAreaStart)
      w.monitor.ioBuffer w

/-- `guest_address_space_init`, with its two calls for the passage page as a step of their own:
`setUpPassagePage`, or what a model of the driver's blocks says of them. When the group of the page
tables is missing the source leaves with the code of the last call, which is OK. -/
def guestAddressSpaceInit (passage : World → Step World) (virtToPhys : Nat → Nat) (w : World) :
    Step World :=
  match coMonitorGetPfn w.monitor.kernelSwapperPgDir w with
  | .error rc => (rc, w)
  | .ok swapperPgDirPfn =>
    (passage (w.setPgd (swapperPgDirPfn <<< coArchPageShift % wordSize))).andThen fun w =>
      if (w.monitor.ppPfns (coVptrPseudoRamPageTables / coArchPmdSize)).isNone then (.ok, w)
      else initPageTables virtToPhys w

end CoLinux
