import CoLinux.Common.Types
import Mathlib.Logic.Function.Basic

/-!
# The page allocator (`os/winnt/kernel/alloc.c`)

Frames come from Windows in MDLs of `PFN_ALLOCATION_COUNT` pages, and one by one when no MDL is
to be had. An object that lives on lists is known by its contents: the frames of an MDL, the frame
and the owner of a `co_os_pfn_ptr_t`. No two live objects have the same as long as Windows gives
frames that are not given already. A list is the list of its entries from the head on. `held` are
the frames Windows has given and not taken back; `corrupt` records a `co_list_del` of an entry
that is on no list, a page taken for an MDL page that is none, and a second release.
-/

namespace CoLinux

abbrev pfnAllocationCount : Nat := 64
abbrev pfnHashSize : Nat := 0x1000

/-- The frames below 4 GB, where `hostmem_max_physical_address` ends. -/
abbrev hostFrames : Nat := 0x100000

/-- `co_os_mdl_ptr_t`, by the frames of its MDL. -/
structure MdlPtr where
  mdl : List Nat
  deriving DecidableEq

/-- The type of a `co_os_pfn_ptr_t` and the union behind it. -/
inductive PfnOwner where
  | mdl (mdl : MdlPtr)
  | page (page : Nat)
  deriving DecidableEq

/-- `co_os_pfn_ptr_t`. -/
structure PfnPtr where
  pfn : Nat
  owner : PfnOwner
  deriving DecidableEq

/-- `mdl_ptr->pfn_ptrs`. -/
def MdlPtr.pfnPtrs (m : MdlPtr) : List PfnPtr := m.mdl.map fun pfn => ⟨pfn, .mdl m⟩

/-- `x--` of an `unsigned long`. -/
def ulongPred (x : Nat) : Nat := if x = 0 then wordSize - 1 else x - 1

/-- `PFN_HASH`. -/
def pfnHash (pfn : Nat) : Nat := pfn % pfnHashSize

/-- `co_osdep_manager_t`, as far as the page allocator goes. -/
structure PageAllocator where
  pagesHash : Nat → List PfnPtr
  pagesUnused : List PfnPtr
  mdlList : List MdlPtr
  mappedAllocatedList : List PfnPtr
  useCount : MdlPtr → Int
  mdlsAllocated : Nat
  pagesAllocated : Nat
  held : List Nat
  corrupt : Bool

/-- What Windows answers in a call of `co_os_get_page`: the three `co_os_malloc`s, the frames of
the MDL, and the address of the single page with its frame. -/
structure PageHost where
  mdlPtr : Bool
  pfnPtrs : Bool
  mdl : Option (List Nat)
  pfnPtr : Bool
  page : Option (Nat × Nat)

namespace PageAllocator

/-- `MmFreePagesFromMdl` or `MmFreeNonCachedMemory`. -/
def release (frames : List Nat) (o : PageAllocator) : PageAllocator :=
  { o with
    held := o.held.filter fun pfn => pfn ∉ frames
    corrupt := o.corrupt || frames.any fun pfn => pfn ∉ o.held }

/-- `co_list_add_head(&p->node, &pages_hash[PFN_HASH(p->pfn)])`. -/
def hashNode (p : PfnPtr) (o : PageAllocator) : PageAllocator :=
  { o with
    pagesHash := Function.update o.pagesHash (pfnHash p.pfn)
      (p :: o.pagesHash (pfnHash p.pfn)) }

/-- `co_list_del(&p->node)`. -/
def delNode (p : PfnPtr) (o : PageAllocator) : PageAllocator :=
  { o with
    pagesHash := fun h => (o.pagesHash h).erase p
    corrupt := o.corrupt || p ∉ o.pagesHash (pfnHash p.pfn) }

/-- `co_list_del(&p->unused)`. -/
def delUnused (p : PfnPtr) (o : PageAllocator) : PageAllocator :=
  { o with
    pagesUnused := o.pagesUnused.erase p
    corrupt := o.corrupt || p ∉ o.pagesUnused }

/-- The loop of `co_winnt_new_mdl_bucket`. -/
def addPages (ps : List PfnPtr) (o : PageAllocator) : PageAllocator :=
  ps.foldl (fun o p => { o with pagesUnused := p :: o.pagesUnused }.hashNode p) o

/-- `co_winnt_new_mdl_bucket`. -/
def newMdlBucket (host : PageHost) (o : PageAllocator) : Step PageAllocator :=
  if ¬(host.mdlPtr ∧ host.pfnPtrs) then (.outOfMemory, o)
  else
    match host.mdl with
    | none => (.outOfMemory, o)
    | some frames =>
      let o := { o with held := frames ++ o.held }
      if frames.length ≠ pfnAllocationCount then (.outOfMemory, o.release frames)
      else
        let m : MdlPtr := ⟨frames⟩
        let o := { o with
          useCount := Function.update o.useCount m 0
          mdlsAllocated := (o.mdlsAllocated + 1) % wordSize
          mdlList := m :: o.mdlList }
        (.ok, o.addPages m.pfnPtrs)

/-- `co_winnt_new_mapped_allocated_page`. -/
def newMappedAllocatedPage (host : PageHost) (o : PageAllocator) :
    Except CoRc Nat × PageAllocator :=
  if host.pfnPtr then
    match host.page with
    | none => (.error .outOfMemory, o)
    | some (page, pfn) =>
      let p : PfnPtr := ⟨pfn, .page page⟩
      let o := { o with held := pfn :: o.held }.hashNode p
      (.ok pfn, { o with mappedAllocatedList := p :: o.mappedAllocatedList })
  else (.error .outOfMemory, o)

/-- `co_winnt_free_mapped_allocated_page`. -/
def freeMappedAllocatedPage (p : PfnPtr) (o : PageAllocator) : PageAllocator :=
  ({ o with
    mappedAllocatedList := o.mappedAllocatedList.erase p
    corrupt := o.corrupt || p ∉ o.mappedAllocatedList }.delNode p).release [p.pfn]

/-- `co_winnt_free_mdl_bucket_no_lists`. -/
def freeMdlBucketNoLists (m : MdlPtr) (o : PageAllocator) : PageAllocator :=
  let o := o.release m.mdl
  { o with
    mdlList := o.mdlList.erase m
    corrupt := o.corrupt || m ∉ o.mdlList
    mdlsAllocated := ulongPred o.mdlsAllocated }

/-- The loop of `co_winnt_free_mdl_bucket`. -/
def delPages (ps : List PfnPtr) (o : PageAllocator) : PageAllocator :=
  ps.foldl (fun o p => (o.delUnused p).delNode p) o

/-- `co_winnt_free_mdl_bucket`. -/
def freeMdlBucket (m : MdlPtr) (o : PageAllocator) : PageAllocator :=
  (o.delPages m.pfnPtrs).freeMdlBucketNoLists m

/-- `co_os_get_unused_mdl_page`: the frame, where the head of `pages_unused` is an MDL page. -/
def getUnusedMdlPage (o : PageAllocator) : Except CoRc Nat × PageAllocator :=
  match o.pagesUnused with
  | [] => (.error .error, { o with corrupt := true })
  | p :: _ =>
    match p.owner with
    | .page _ => (.error .error, { o with corrupt := true })
    | .mdl m =>
      let o := { o with useCount := Function.update o.useCount m (o.useCount m + 1) }.delUnused p
      (.ok p.pfn, { o with pagesAllocated := (o.pagesAllocated + 1) % wordSize })

/-- `co_winnt_put_unused_mdl_page`. -/
def putUnusedMdlPage (p : PfnPtr) (m : MdlPtr) (o : PageAllocator) : PageAllocator :=
  let o := { o with
    useCount := Function.update o.useCount m (o.useCount m - 1)
    pagesUnused := p :: o.pagesUnused }
  let o := if o.useCount m = 0 then o.freeMdlBucket m else o
  { o with pagesAllocated := ulongPred o.pagesAllocated }

/-- `co_os_get_page`. -/
def coOsGetPage (host : PageHost) (o : PageAllocator) : Except CoRc Nat × PageAllocator :=
  if o.pagesUnused ≠ [] then o.getUnusedMdlPage
  else
    let r := o.newMdlBucket host
    if r.1 = .ok then r.2.getUnusedMdlPage else r.2.newMappedAllocatedPage host

/-- `co_os_put_page`. -/
def coOsPutPage (pfn : Nat) (o : PageAllocator) : PageAllocator :=
  match (o.pagesHash (pfnHash pfn)).find? (fun p => p.pfn = pfn) with
  | none => o
  | some p =>
    match p.owner with
    | .mdl m => o.putUnusedMdlPage p m
    | .page _ => o.freeMappedAllocatedPage p

end PageAllocator

/-! ## Sequences of calls -/

/-- A call of the page allocator. -/
inductive PageRequest where
  | get (host : PageHost)
  | put (pfn : Nat)

/-- The allocator with the frames that its callers have, the last one first. -/
structure PageWorld where
  osdep : PageAllocator
  out : List Nat

/-- The state after `co_os_manager_init`. -/
def PageWorld.boot : PageWorld where
  osdep := ⟨fun _ => [], [], [], [], fun _ => 0, 0, 0, [], false⟩
  out := []

def PageRequest.step : PageRequest → PageWorld → PageWorld
  | .get host, w =>
    match w.osdep.coOsGetPage host with
    | (.ok pfn, o) => ⟨o, pfn :: w.out⟩
    | (.error _, o) => ⟨o, w.out⟩
  | .put pfn, w => ⟨w.osdep.coOsPutPage pfn, w.out.erase pfn⟩

/-- Windows gives frames that it has not given already, each of them once; a frame that is put
is out. -/
def PageRequest.Valid (w : PageWorld) : PageRequest → Prop
  | .get host =>
    (∀ frames ∈ host.mdl, frames.Nodup ∧ ∀ pfn ∈ frames, pfn < hostFrames ∧ pfn ∉ w.osdep.held) ∧
      ∀ page ∈ host.page, page.2 < hostFrames ∧ page.2 ∉ w.osdep.held
  | .put pfn => pfn ∈ w.out

instance (w : PageWorld) (r : PageRequest) : Decidable (r.Valid w) := by
  cases r <;> unfold PageRequest.Valid <;> infer_instance

end CoLinux
