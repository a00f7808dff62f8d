import CoLinux.Common.Types
import CoLinux.Lib.ByteMem

/-!
# Driver state for the paging code

One manager, one of its monitors, the physical memory both write to, and the host the driver
asks for frames and for pool memory. What the host answers is not determined by the driver, so
it is part of the state: a script of answers, consumed in order. An exhausted script refuses.
-/

namespace CoLinux

open Lib

/-- The host side of `co_os_get_page` and `co_os_malloc`. -/
structure Host where
  /-- Frames handed out and not yet given back. -/
  out : List Nat
  /-- Answers to the next page requests; `none` refuses. -/
  answers : List (Option Nat)
  /-- Answers to the next pool requests; `false` refuses. -/
  mallocs : List Bool

/-- The part of `co_manager_t` that describes host memory and the reversed map. -/
structure CoManager where
  hostmemPages : Nat
  reversedMapPfns : Nat → Nat
  reversedPageCount : Nat
  reversedMapPgds : Nat → Nat
  reversedMapPgdsCount : Nat

/-- The part of `co_monitor_t` that describes the guest's memory. `ppPfns` is the two-level
array `pp_pfns`, present when `hasPpPfns`; a group that was not allocated is `none`. -/
structure CoMonitor where
  memorySize : Nat
  endPhysical : Nat
  hasPpPfns : Bool
  ppPfns : Nat → Option (Nat → Nat)
  blocksAllocated : Nat
  kernelSwapperPgDir : Nat
  ioBuffer : Nat
  passagePage : Nat
  pgd : Nat

structure World where
  mem : ByteMem
  host : Host
  manager : CoManager
  monitor : CoMonitor

/-- The `pp_pfns` entry of guest page number `n`, with a missing group read as zeros. -/
def World.ppPfn (w : World) (n : Nat) : Nat :=
  match w.monitor.ppPfns (n / ptrsPerPte) with
  | none => 0
  | some group => group (n % ptrsPerPte)

/-- `pp_pfns[group] = pfns`. -/
def World.setPpGroup (w : World) (group : Nat) (pfns : Nat → Nat) : World :=
  { w with monitor := { w.monitor with
      ppPfns := fun g => if g = group then some pfns else w.monitor.ppPfns g } }

/-- `pp_pfns[group][index] = pfn`, for a group that is allocated. -/
def World.setPpPfn (w : World) (group index pfn : Nat) : World :=
  match w.monitor.ppPfns group with
  | none => w
  | some pfns => w.setPpGroup group fun i => if i = index then pfn else pfns i

def World.setMem (w : World) (mem : ByteMem) : World := { w with mem := mem }

def World.setHost (w : World) (host : Host) : World := { w with host := host }

/-! ## Requests to the host -/

/-- `co_os_malloc`, for blocks whose contents the model keeps elsewhere. -/
def coOsMalloc (w : World) : Bool × World :=
  match w.host.mallocs with
  | [] => (false, w)
  | granted :: rest => (granted, w.setHost { w.host with mallocs := rest })

def coMonitorMalloc (w : World) : Step World :=
  let (granted, w) := coOsMalloc w
  if granted then
    (.ok, { w with monitor := { w.monitor with
      blocksAllocated := w.monitor.blocksAllocated + 1 } })
  else (.outOfMemory, w)

/-- `co_os_get_page`. The host never hands out a frame that is already out, nor frame 0: an
answer that does counts as a refusal. -/
def coOsGetPage (w : World) : Except CoRc Nat × World :=
  match w.host.answers with
  | [] => (.error .outOfMemory, w)
  | none :: rest => (.error .outOfMemory, w.setHost { w.host with answers := rest })
  | some pfn :: rest =>
    if pfn = 0 ∨ pfn ∈ w.host.out then
      (.error .outOfMemory, w.setHost { w.host with answers := rest })
    else (.ok pfn, w.setHost { w.host with answers := rest, out := pfn :: w.host.out })

/-- `co_monitor_free`; the block itself is kept elsewhere. -/
def coMonitorFree (w : World) : World :=
  { w with monitor := { w.monitor with blocksAllocated := w.monitor.blocksAllocated - 1 } }

def coOsPutPage (pfn : Nat) (w : World) : World :=
  w.setHost { w.host with out := w.host.out.filter (· ≠ pfn) }

/-- `co_manager_get_page`. A frame that is too high is reported and stays out. -/
def coManagerGetPage (w : World) : Except CoRc Nat × World :=
  match coOsGetPage w with
  | (.error rc, w) => (.error rc, w)
  | (.ok pfn, w) =>
    if w.manager.hostmemPages ≤ pfn then (.error .error, w) else (.ok pfn, w)

/-! ## Small lemmas -/

@[simp] theorem setPpGroup_mem (w : World) (g : Nat) (f : Nat → Nat) :
    (w.setPpGroup g f).mem = w.mem := rfl
@[simp] theorem setPpGroup_host (w : World) (g : Nat) (f : Nat → Nat) :
    (w.setPpGroup g f).host = w.host := rfl
@[simp] theorem setPpGroup_manager (w : World) (g : Nat) (f : Nat → Nat) :
    (w.setPpGroup g f).manager = w.manager := rfl

@[simp] theorem setPpPfn_mem (w : World) (g i p : Nat) : (w.setPpPfn g i p).mem = w.mem := by
  unfold World.setPpPfn; split <;> rfl
@[simp] theorem setPpPfn_host (w : World) (g i p : Nat) : (w.setPpPfn g i p).host = w.host := by
  unfold World.setPpPfn; split <;> rfl
@[simp] theorem setPpPfn_manager (w : World) (g i p : Nat) :
    (w.setPpPfn g i p).manager = w.manager := by
  unfold World.setPpPfn; split <;> rfl

@[simp] theorem setMem_mem (w : World) (m : ByteMem) : (w.setMem m).mem = m := rfl
@[simp] theorem setMem_host (w : World) (m : ByteMem) : (w.setMem m).host = w.host := rfl
@[simp] theorem setMem_manager (w : World) (m : ByteMem) : (w.setMem m).manager = w.manager := rfl
@[simp] theorem setMem_monitor (w : World) (m : ByteMem) : (w.setMem m).monitor = w.monitor := rfl
@[simp] theorem setMem_setMem (w : World) (m m' : ByteMem) :
    (w.setMem m).setMem m' = w.setMem m' := rfl
@[simp] theorem setHost_mem (w : World) (h : Host) : (w.setHost h).mem = w.mem := rfl
@[simp] theorem setHost_host (w : World) (h : Host) : (w.setHost h).host = h := rfl
@[simp] theorem setHost_manager (w : World) (h : Host) : (w.setHost h).manager = w.manager := rfl
@[simp] theorem setHost_monitor (w : World) (h : Host) : (w.setHost h).monitor = w.monitor := rfl

@[simp] theorem ppPfn_setMem (w : World) (m : ByteMem) (n : Nat) :
    (w.setMem m).ppPfn n = w.ppPfn n := rfl
/-- A store leaves the recorded frames alone. -/
theorem setMem_ppPfn (w : World) (m : ByteMem) : (w.setMem m).ppPfn = w.ppPfn := rfl
@[simp] theorem ppPfn_setHost (w : World) (h : Host) (n : Nat) :
    (w.setHost h).ppPfn n = w.ppPfn n := rfl

end CoLinux
