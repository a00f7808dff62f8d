import CoLinux.Kernel.Pages
import CoLinux.Kernel.PassageTables

/-!
# The passage page in memory (`arch/i386/passage.c`)

`guest_address_space_init` allocates the passage page and fills it. It is a row of pages of the host
and no page of the guest: a page with the switching code and the states of both machines, and the page
tables of `PassageTables`.
-/

namespace CoLinux

open Lib

namespace PassagePage

def normalFrames (page : PassagePage) : List Nat :=
  [page.guestNormal.pgd, page.guestNormal.pte false, page.guestNormal.pte true]

def paeFrames (page : PassagePage) : List Nat :=
  [page.hostPae.main, page.hostPae.pgd false, page.hostPae.pgd true, page.hostPae.pte false,
    page.hostPae.pte true]

/-- The pages of a `co_arch_passage_page_t`. -/
def frames (page : PassagePage) : List Nat := page.firstPage :: page.normalFrames ++ page.paeFrames

end PassagePage

/-- A block of `co_os_alloc_pages` for a passage page: where the driver sees it. -/
structure PassageBlock (virtToPhys : Nat → Nat) where
  address : Nat
  page : PassagePage
  phys : ∀ i (lt : i < 9), virtToPhys (address + coArchPageSize * i) =
    coArchPageSize * page.frames.get ⟨i, lt⟩

/-- What the host and the processor answer to the calls for the passage page. -/
structure PassageHost (virtToPhys : Nat → Nat) where
  /-- The answer of `co_os_alloc_pages`. -/
  block : Option (PassageBlock virtToPhys)
  /-- `co_arch_anti_nx_init`. It changes a page table of the host only. -/
  antiNx : CoRc
  /-- The passage code fits `code`. -/
  codeFits : Bool
  /-- `co_is_pae_enabled`. -/
  pae : Bool
  /-- What `co_monitor_arch_passage_page_init` stores in the first page: addresses, the code and the
  states of both machines. -/
  firstPage : CoMonitor → Nat → UInt8

variable {virtToPhys : Nat → Nat}

def World.setPassagePage (w : World) (address : Nat) : World :=
  { w with monitor := { w.monitor with passagePage := address } }

/-- `co_memset` over whole frames. -/
def clearFrames (frames : List Nat) (mem : ByteMem) : ByteMem :=
  frames.foldl (fun mem f => mem.copyBytes (f * coArchPageSize) coArchPageSize fun _ => 0) mem

/-- `co_monitor_arch_passage_page_alloc`. As for `co_os_get_page`, an answer with a frame that is
already out counts as a refusal. -/
def coMonitorArchPassagePageAlloc (h : PassageHost virtToPhys) (w : World) :
    Except CoRc (PassageBlock virtToPhys) × World :=
  let (granted, w) := coOsMalloc w
  if granted = false then (.error .outOfMemory, w)
  else
    match h.block with
    | none => (.error .outOfMemory, w.setPassagePage 0)
    | some block =>
      if ∃ f ∈ block.page.frames, f ∈ w.host.out then (.error .outOfMemory, w.setPassagePage 0)
      else if h.antiNx = .ok then
        (.ok block, ((w.setHost { w.host with out := block.page.frames ++ w.host.out }).setMem
          (clearFrames block.page.frames w.mem)).setPassagePage block.address)
      else (.error h.antiNx, (w.setMem (clearFrames block.page.frames w.mem)).setPassagePage 0)

/-- The words of a table, whose entries have eight bytes in the PAE layout. -/
def tableWords (pae : Bool) (entries : Nat → Nat) (k : Nat) : Nat :=
  if pae then if k % 2 = 0 then entries (k / 2) % wordSize else entries (k / 2) / wordSize
  else entries k

def storeTables (pae : Bool) (tables : TableMem) (frames : List Nat) (mem : ByteMem) : ByteMem :=
  frames.foldl (fun mem f => mem.writeWords (f * coArchPageSize) ptrsPerPte
    (tableWords pae (tables f))) mem

/-- `co_monitor_arch_passage_page_init` of a block that is zeroed. -/
def fillPassagePage (h : PassageHost virtToPhys) (block : PassageBlock virtToPhys) (w : World) :
    Step World :=
  if h.codeFits = false then (.error, w)
  else
    let page := block.page
    let tables := coMonitorArchPassagePageInit h.pae page coVptrPassagePage block.address
      fun _ _ => 0
    let first := w.mem.copyBytes (page.firstPage * coArchPageSize) coArchPageSize
      (h.firstPage w.monitor)
    (.ok, w.setMem (storeTables true tables page.paeFrames
      (storeTables false tables page.normalFrames first)))

/-- The two calls of `guest_address_space_init`. -/
def setUpPassagePage (h : PassageHost virtToPhys) (w : World) : Step World :=
  match coMonitorArchPassagePageAlloc h w with
  | (.error rc, w) => (rc, w)
  | (.ok block, w) => fillPassagePage h block w

/-! ## What they leave alone -/

variable {q i : Nat} {frames : List Nat} {mem : ByteMem}

theorem clearFrames_outside (other : q ∉ frames) (hi : i < coArchPageSize) :
    clearFrames frames mem (q * coArchPageSize + i) = mem (q * coArchPageSize + i) := by
  induction frames generalizing mem with
  | nil => rfl
  | cons f fs ih =>
    simp only [List.mem_cons, not_or] at other
    obtain ⟨ne, rest⟩ := other
    rw [clearFrames, List.foldl_cons]
    refine (ih rest).trans (mem.copyBytes_outside _ ?_)
    simp only [coArchPageSize] at hi ⊢
    omega

theorem storeTables_outside {pae : Bool} {tables : TableMem} (other : q ∉ frames)
    (hi : i < coArchPageSize) :
    storeTables pae tables frames mem (q * coArchPageSize + i) = mem (q * coArchPageSize + i) := by
  induction frames generalizing mem with
  | nil => rfl
  | cons f fs ih =>
    simp only [List.mem_cons, not_or] at other
    obtain ⟨ne, rest⟩ := other
    rw [storeTables, List.foldl_cons]
    refine (ih rest).trans (mem.writeWords_outside _ ?_)
    simp only [coArchPageSize, ptrsPerPte] at hi ⊢
    omega

end CoLinux
