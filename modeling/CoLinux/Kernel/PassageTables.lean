import CoLinux.Common.Types
import CoLinux.Lib.PageWalk

/-!
# Address spaces of the passage page (`arch/i386/passage.c`)

While the processor switches between host and guest it runs on temporary page tables that are a
part of the passage page. They map the passage page at two addresses and nothing else.
-/

namespace CoLinux

open Lib

abbrev coArchPaePgdSize : Nat := 1073741824
abbrev coArchPaePmdSize : Nat := 2097152

/-- The frames of a `co_arch_passage_page_normal_address_space_t`. -/
structure NormalAddressSpace where
  pgd : Nat
  pte : Bool → Nat
  distinct : [pgd, pte false, pte true].Nodup

/-- The frames of a `co_arch_passage_page_pae_address_space_t`. -/
structure PaeAddressSpace where
  main : Nat
  pgd : Bool → Nat
  pte : Bool → Nat
  distinct : [main, pgd false, pgd true, pte false, pte true].Nodup

/-! ## Indices -/

/-- `va >> CO_ARCH_PMD_SHIFT`. -/
def pmdIndex (va : Nat) : Nat := va / coArchPmdSize

/-- `(va & ~CO_ARCH_PMD_MASK) >> CO_ARCH_PAGE_SHIFT`. -/
def pteIndex (va : Nat) : Nat := va % coArchPmdSize / coArchPageSize

/-- `va >> CO_ARCH_PAE_PGD_SHIFT`. -/
def paePgdIndex (va : Nat) : Nat := va / coArchPaePgdSize

/-- `(va & ~CO_ARCH_PAE_PGD_MASK) >> CO_ARCH_PAE_PMD_SHIFT`. -/
def paePmdIndex (va : Nat) : Nat := va % coArchPaePgdSize / coArchPaePmdSize

/-- `(va & ~CO_ARCH_PAE_PMD_MASK) >> CO_ARCH_PAGE_SHIFT`. -/
def paePteIndex (va : Nat) : Nat := va % coArchPaePmdSize / coArchPageSize

/-! ## The initialisations -/

/-- `short_temp_address_space_init`. -/
def shortTempAddressSpaceInit (pp : NormalAddressSpace) (pa : Nat) (va : Bool → Nat)
    (m : TableMem) : TableMem :=
  if pmdIndex (va false) = pmdIndex (va true) then
    ((m.set pp.pgd (pmdIndex (va false)) (tableEntry kernpgTable (pp.pte false))).set
      (pp.pte false) (pteIndex (va false)) (kernpgTable ||| pa)).set
      (pp.pte false) (pteIndex (va true)) (kernpgTable ||| pa)
  else
    (((m.set pp.pgd (pmdIndex (va false)) (tableEntry kernpgTable (pp.pte false))).set
      pp.pgd (pmdIndex (va true)) (tableEntry kernpgTable (pp.pte true))).set
      (pp.pte false) (pteIndex (va false)) (kernpgTable ||| pa)).set
      (pp.pte true) (pteIndex (va true)) (kernpgTable ||| pa)

/-- A turn of the loop of `normal_temp_address_space_init`; `i` is its counter. -/
def normalTempMap (as : NormalAddressSpace) (pa : Nat) (i : Bool) (va : Nat) (m : TableMem) :
    TableMem :=
  if m as.pgd (pmdIndex va) = 0 then
    (m.set as.pgd (pmdIndex va) (tableEntry kernpgTable (as.pte i))).set
      (as.pte i) (pteIndex va) (kernpgTable ||| pa)
  else m.set (as.pte false) (pteIndex va) (kernpgTable ||| pa)

/-- `normal_temp_address_space_init`. -/
def normalTempAddressSpaceInit (as : NormalAddressSpace) (pa va : Nat) (m : TableMem) : TableMem :=
  normalTempMap as pa true pa (normalTempMap as pa false va m)

/-- The lower two levels of a turn of the loop of `pae_temp_address_space_init`; `j` and `i` are
the page directory and the page table that are used unless there is an entry. -/
def paeTempMapBelow (as : PaeAddressSpace) (pa : Nat) (j i : Bool) (va : Nat) (m : TableMem) :
    TableMem :=
  if m (as.pgd j) (paePmdIndex va) = 0 then
    (m.set (as.pgd j) (paePmdIndex va) (tableEntry kernpgTable (as.pte i))).set
      (as.pte i) (paePteIndex va) (kernpgTable ||| pa)
  else m.set (as.pte false) (paePteIndex va) (kernpgTable ||| pa)

/-- A turn of the loop of `pae_temp_address_space_init`. -/
def paeTempMap (as : PaeAddressSpace) (pa : Nat) (i : Bool) (va : Nat) (m : TableMem) : TableMem :=
  if m as.main (paePgdIndex va) = 0 then
    paeTempMapBelow as pa i i va (m.set as.main (paePgdIndex va) (tableEntry 1 (as.pgd i)))
  else paeTempMapBelow as pa false i va m

/-- `pae_temp_address_space_init`. -/
def paeTempAddressSpaceInit (as : PaeAddressSpace) (pa va : Nat) (m : TableMem) : TableMem :=
  paeTempMap as pa true pa (paeTempMap as pa false va m)

/-- The pages of a `co_arch_passage_page_t`: the page that is mapped and the tables behind it. The
two unions of the structure are of a normal and of either kind of space. -/
structure PassagePage where
  firstPage : Nat
  guestNormal : NormalAddressSpace
  hostPae : PaeAddressSpace
  apart : ∀ f ∈ [guestNormal.pgd, guestNormal.pte false, guestNormal.pte true],
    f ∉ [hostPae.main, hostPae.pgd false, hostPae.pgd true, hostPae.pte false, hostPae.pte true]

/-- The tables that `co_monitor_arch_passage_page_init` fills for a passage page at the host
address `pp`; the guest sees it at `passagePageVaddr`. `co_is_pae_enabled` selects the layout. -/
def coMonitorArchPassagePageInit (pae : Bool) (page : PassagePage) (passagePageVaddr pp : Nat)
    (m : TableMem) : TableMem :=
  let pa := coArchPageSize * page.firstPage
  if pae then
    normalTempAddressSpaceInit page.guestNormal pa passagePageVaddr
      (paeTempAddressSpaceInit page.hostPae pa pp m)
  else
    shortTempAddressSpaceInit page.guestNormal pa
      (fun i => if i then pp else passagePageVaddr) m

/-! ## What the tables have to do -/

/-- The walk over a normal space: the physical address of a virtual one. -/
def NormalAddressSpace.resolve (as : NormalAddressSpace) (m : TableMem) (va : Nat) : Option Nat :=
  (walk m as.pgd [va / 4194304, va / 4096 % 1024]).map fun frame => 4096 * frame + va % 4096

/-- The walk over a PAE space. -/
def PaeAddressSpace.resolve (as : PaeAddressSpace) (m : TableMem) (va : Nat) : Option Nat :=
  (walk m as.main [va / 1073741824, va / 2097152 % 512, va / 4096 % 512]).map fun frame =>
    4096 * frame + va % 4096

/-- The page at `pa` is seen in the pages at `a` and `b`, and nothing in any other. -/
def ResolvesOnly (resolve : Nat → Option Nat) (a b pa : Nat) : Prop :=
  ∀ va, resolve va =
    if va / coArchPageSize = a / coArchPageSize ∨ va / coArchPageSize = b / coArchPageSize then
      some (pa + va % coArchPageSize)
    else none

/-- The tables of a passage page are zeroed. -/
structure PassagePage.Zeroed (page : PassagePage) (m : TableMem) : Prop where
  normal : ∀ f ∈ [page.guestNormal.pgd, page.guestNormal.pte false, page.guestNormal.pte true],
    ∀ i, m f i = 0
  pae : ∀ f ∈ [page.hostPae.main, page.hostPae.pgd false, page.hostPae.pgd true,
    page.hostPae.pte false, page.hostPae.pte true], ∀ i, m f i = 0

end CoLinux
