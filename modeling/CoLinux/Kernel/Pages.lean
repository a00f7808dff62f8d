import CoLinux.Kernel.ReversedPfns

/-!
# Guest pages (`kernel/pages.c`)

The walks over guest pages, the page tables they create, and the two operations that map and
unmap one page of pseudo physical RAM. A function that returns `co_rc_t` returns it next to
the state it leaves, because the C code keeps what it wrote before it fails.
-/

namespace CoLinux

open Lib

/-! ## Splitting a range by pages -/

/-- `((offset + CO_ARCH_PAGE_SIZE) & CO_ARCH_PAGE_MASK) - offset`. -/
def pagePart (offset : Nat) : Nat :=
  ((offset + coArchPageSize) % wordSize / coArchPageSize * coArchPageSize + wordSize - offset) %
    wordSize

/-- The loop of `co_split_by_pages_and_callback`; the first argument bounds its iterations. -/
def splitLoop {σ : Type} (func : Nat → Nat → σ → Step σ) : Nat → Nat → Nat → σ → Step σ
  | 0, _, _, s => (.ok, s)
  | fuel + 1, offset, size, s =>
    if size = 0 then (.ok, s)
    else
      let partSize := min (pagePart offset) size
      (func offset partSize s).andThen
        (splitLoop func fuel ((offset + partSize) % wordSize) (size - partSize))

/-- `co_split_by_pages_and_callback`. Every part is at least one byte long, so `size`
iterations are enough. -/
def coSplitByPagesAndCallback {σ : Type} (func : Nat → Nat → σ → Step σ)
    (offset size : Nat) (s : σ) : Step σ :=
  splitLoop func size offset size s

/-! ## Scanning guest pages -/

/-- `if (pp_pfns[pfn_group] == NULL)`: allocate and clear the group, or fail with `failure`. -/
def allocPpGroup (failure : CoRc) (group : Nat) (w : World) : Step World :=
  if (w.monitor.ppPfns group).isSome then (.ok, w)
  else
    let block := coMonitorMalloc w
    if block.1 = .ok then (.ok, block.2.setPpGroup group fun _ => 0) else (failure, block.2)

/-- A `co_manager_scan_pfns_callback_t`: it gets the mapped address, the number of bytes and
the position in its data, and returns the memory and the new position. -/
abbrev ScanFunc := World → Nat → Nat → Nat → ByteMem × Nat

/-- `real_pfn = pp_pfns[pfn_group][current_pfn]`, taking a new page when it is 0. -/
def recordedOrNewPfn (page : Nat) (w : World) : Except CoRc Nat × World :=
  if w.ppPfn page ≠ 0 then (.ok (w.ppPfn page), w)
  else
    match coManagerGetPage w with
    | (.error rc, w) => (.error rc, w)
    | (.ok pfn, w) => (.ok pfn, w.setPpPfn (page / ptrsPerPte) (page % ptrsPerPte) pfn)

/-- `cbdata->func(mapped_page + ...)`, whose result the source drops. -/
def callScanFunc (func : Option ScanFunc) (realPfn offset size : Nat) (s : World × Nat) :
    World × Nat :=
  match func with
  | none => s
  | some func =>
    let (mem, data) :=
      func s.1 (realPfn * coArchPageSize + offset % coArchPageSize) size s.2
    (s.1.setMem mem, data)

def scanPfnsSplitCallback (func : Option ScanFunc) (allocPages : Bool) (offset size : Nat)
    (s : World × Nat) : Step (World × Nat) :=
  let page := offset / coArchPageSize
  let group := allocPpGroup .error (page / ptrsPerPte) s.1
  if group.1 ≠ .ok then (group.1, group.2, s.2)
  else if allocPages = false then (.ok, group.2, s.2)
  else
    match recordedOrNewPfn page group.2 with
    | (.error rc, w) => (rc, w, s.2)
    | (.ok realPfn, w) => (.ok, callScanFunc func realPfn offset size (w, s.2))

def coManagerScanPfnsAndCallback (address size : Nat) (func : Option ScanFunc)
    (allocPages : Bool) (w : World) : Step World :=
  let r := coSplitByPagesAndCallback (scanPfnsSplitCallback func allocPages) address size (w, 0)
  (r.1, r.2.1)

/-- `copy_callback`, the data being a position in `source`. -/
def copyCallback (source : Nat → UInt8) : ScanFunc := fun w mappedPtr size data =>
  (w.mem.copyBytes mappedPtr size fun i => source (data + i), data + size)

def coMonitorCopyAndCreatePfns (address size : Nat) (source : Nat → UInt8) (w : World) :
    Step World :=
  coManagerScanPfnsAndCallback address size (some (copyCallback source)) true w

def coMonitorScanAndCreatePfns (address size : Nat) (w : World) : Step World :=
  coManagerScanPfnsAndCallback address size none true w

/-- `create_ptes_callback`, the data being a position in the array of frames `source`, which
is read when the entries are written. -/
def createPtesCallback (source : World → Nat → Nat) : ScanFunc := fun w mappedPtr size data =>
  (w.mem.writeWords mappedPtr (size / sizeofPte) fun i => linuxPte (source w (data + i)),
    data + size / sizeofPte)

def coMonitorCreatePtes (address size : Nat) (source : World → Nat → Nat) (w : World) :
    Step World :=
  coManagerScanPfnsAndCallback address size (some (createPtesCallback source)) true w

/-! ## Mapping and unmapping one page -/

/-- `(address - CO_ARCH_KERNEL_OFFSET) >> CO_ARCH_PAGE_SHIFT`. -/
def virtualPfn (address : Nat) : Nat :=
  (address + wordSize - coArchKernelOffset) % wordSize / coArchPageSize

/-- Where the guest keeps the page table entry of virtual frame `v`. -/
def pteAddress (v : Nat) : Nat := (coVptrPseudoRamPageTables + sizeofPte * v) % wordSize

/-- `pp_pfns[pfn_group][pfn_index] = physical_pfn` and the two stores that map the page. -/
def mapPage (address physicalPfn : Nat) (w : World) : Step World :=
  let page := address / coArchPageSize
  (coManagerSetReversedPfn physicalPfn (virtualPfn address)
    (w.setPpPfn (page / ptrsPerPte) (page % ptrsPerPte) physicalPfn)).andThen
    (coMonitorCreatePtes (pteAddress (virtualPfn address)) sizeofPte fun _ _ => physicalPfn)

def coMonitorAllocAndMapPage (address : Nat) (w : World) : Step World :=
  (allocPpGroup .outOfMemory (address / coArchPageSize / ptrsPerPte) w).andThen fun w =>
    if w.ppPfn (address / coArchPageSize) ≠ 0 then (.ok, w)
    else
      match coManagerGetPage w with
      | (.error rc, w) => (rc, w)
      | (.ok physicalPfn, w) => mapPage address physicalPfn w

def coMonitorFreeAndUnmapPage (address : Nat) (w : World) : Step World :=
  let page := address / coArchPageSize
  if (w.monitor.ppPfns (page / ptrsPerPte)).isNone then (.error, w)
  else
    -- the results of this call and of the next one are dropped by the source
    let w := (coMonitorCreatePtes (pteAddress (virtualPfn address)) sizeofPte (fun _ _ => 0) w).2
    let physicalPfn := w.ppPfn page
    if physicalPfn = 0 then (.ok, w)
    else
      let w := (coManagerSetReversedPfn physicalPfn 0 w).2
      (.ok, (coOsPutPage physicalPfn w).setPpPfn (page / ptrsPerPte) (page % ptrsPerPte) 0)

/-! ## Reading and copying guest memory -/

/-- `co_monitor_get_pfn`. -/
def coMonitorGetPfn (address : Nat) (w : World) : Except CoRc Nat :=
  if (w.monitor.ppPfns (address / coArchPageSize / ptrsPerPte)).isNone then .error .error
  else .ok (w.ppPfn (address / coArchPageSize))

/-- The part of the source that goes to a piece of a copy; without data the piece is cleared. -/
def copyRegionBytes (data : Option (Nat → UInt8)) (position : Nat) : Nat → UInt8 :=
  match data with
  | some bytes => fun i => bytes (position + i)
  | none => fun _ => 0

/-- `copy_region_split_callback`, the data being a position in the source. -/
def copyRegionSplitCallback (data : Option (Nat → UInt8)) (offset size : Nat)
    (s : World × Nat) : Step (World × Nat) :=
  let page := offset / coArchPageSize * coArchPageSize
  let mapped := coMonitorAllocAndMapPage page s.1
  if mapped.1 ≠ .ok then (mapped.1, mapped.2, s.2)
  else
    match coMonitorGetPfn page mapped.2 with
    | .error rc => (rc, mapped.2, s.2)
    | .ok realPfn =>
      (.ok, mapped.2.setMem (mapped.2.mem.copyBytes
        (realPfn * coArchPageSize + offset % coArchPageSize) size (copyRegionBytes data s.2)),
        if data.isSome then s.2 + size else s.2)

def coMonitorCopyRegion (address size : Nat) (data : Option (Nat → UInt8)) (w : World) :
    Step World :=
  let r := coSplitByPagesAndCallback (copyRegionSplitCallback data) address size (w, 0)
  (r.1, r.2.1)

/-! ## Pseudo physical RAM (`kernel/monitor.c`) -/

/-- `free_pseudo_physical_memory`: gives back every recorded frame, every group and the array
of groups. -/
def freePseudoPhysicalMemory (w : World) : World :=
  if w.monitor.hasPpPfns = false then w
  else
    let w := (List.range ptrsPerPgd).foldl (fun w group =>
      match w.monitor.ppPfns group with
      | none => w
      | some pfns => coMonitorFree ((List.range ptrsPerPte).foldl (fun w i =>
          if pfns i ≠ 0 then coOsPutPage (pfns i) w else w) w)) w
    coMonitorFree { w with monitor := { w.monitor with
      hasPpPfns := false, ppPfns := fun _ => none } }

/-- The byte size of the full page tables of pseudo physical RAM. -/
def fullPageTablesSize (memorySize : Nat) : Nat :=
  coArchPageSize * (memorySize / coArchPmdSize)

/-- The byte size of the used part of the last page table, when that one is not full. -/
def partialPageTableSize (memorySize : Nat) : Nat :=
  4 * (memorySize % coArchPmdSize / coArchPageSize)

/-- The two calls that allocate the page tables' pages. -/
def scanPageTables (w : World) : Step World :=
  (coMonitorScanAndCreatePfns coVptrPseudoRamPageTables
    (fullPageTablesSize w.monitor.memorySize) w).andThen fun w =>
      if partialPageTableSize w.monitor.memorySize ≠ 0 then
        coMonitorScanAndCreatePfns
          (coVptrPseudoRamPageTables + fullPageTablesSize w.monitor.memorySize)
          (partialPageTableSize w.monitor.memorySize) w
      else (.ok, w)

/-- `alloc_pp_ram_mapping`. The pages it takes are not cleared. -/
def allocPpRamMapping (w : World) : Step World :=
  (coMonitorMalloc w).andThen fun w =>
    let tables := scanPageTables { w with monitor := { w.monitor with
      hasPpPfns := true, ppPfns := fun _ => none } }
    if tables.1 = .ok then tables else (tables.1, freePseudoPhysicalMemory tables.2)

end CoLinux
