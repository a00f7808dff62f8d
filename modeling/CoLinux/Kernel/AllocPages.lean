import CoLinux.Kernel.Proofs.RamStep

/-!
# Guest requests for pages (`co_alloc_pages`, `co_free_pages`)

The guest asks for a run of pages. When one of them cannot be had, the driver frees the pages
of the run up to that one, whether this call mapped them or an earlier one did.
-/

namespace CoLinux

open Lib

/-- The loop of `co_free_pages` and of the error path of `co_alloc_pages`, over `n` pages. -/
def freePagesLoop : Nat → Nat → World → World
  | 0, _, w => w
  | n + 1, scanAddress, w =>
    freePagesLoop n ((scanAddress + coArchPageSize) % wordSize)
      (coMonitorFreeAndUnmapPage scanAddress w).2

/-- `co_free_pages`; a negative count frees nothing. -/
def coFreePages (address : Nat) (numPages : Int) (w : World) : World :=
  freePagesLoop numPages.toNat address w

/-- The loop of `co_alloc_pages`: `n` iterations are left and `i` are done. -/
def allocPagesLoop (address : Nat) : Nat → Nat → Nat → World → Step World
  | 0, _, _, w => (.ok, w)
  | n + 1, i, scanAddress, w =>
    let r := coMonitorAllocAndMapPage scanAddress w
    if r.1 = .ok then
      allocPagesLoop address n (i + 1) ((scanAddress + coArchPageSize) % wordSize) r.2
    else (r.1, freePagesLoop i address r.2)

/-- `co_alloc_pages`. -/
def coAllocPages (address : Nat) (numPages : Int) (w : World) : Step World :=
  allocPagesLoop address numPages.toNat 0 address w

end CoLinux
