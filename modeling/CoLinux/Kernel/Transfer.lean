import CoLinux.Kernel.Pages

/-!
# Transfers between host and guest memory (`kernel/transfer.c`)

The bound checks, the loop that maps one guest page after the other for a transfer function,
and the copy built on it. The model keeps what `co_os_map` was called on.
-/

namespace CoLinux

open Lib

/-- A `co_monitor_transfer_func_t`: it gets the mapped address and the number of bytes, and
works on host memory and on what `host_data` points to. -/
abbrev TransferFunc (δ : Type) := Nat → Nat → ByteMem × δ → Step (ByteMem × δ)

structure Transfer (δ : Type) where
  mem : ByteMem
  hostData : δ
  /-- The guest address and the frame of every call of `co_os_map`, oldest first. -/
  mapped : List (Nat × Nat)

/-- The two bound checks; the end of the range is computed in 32 bits. -/
def TransferInBounds (endPhysical vaddr size : Nat) : Prop :=
  (coArchKernelOffset ≤ vaddr ∧ vaddr < endPhysical) ∧
    coArchKernelOffset ≤ (vaddr + size) % wordSize ∧ (vaddr + size) % wordSize ≤ endPhysical

instance (endPhysical vaddr size : Nat) : Decidable (TransferInBounds endPhysical vaddr size) :=
  instDecidableAnd

/-- The checks of `co_monitor_host_linuxvm_transfer_map`. -/
def TransferMapInBounds (endPhysical vaddr size : Nat) : Prop :=
  TransferInBounds endPhysical vaddr size ∧ size ≠ 0 ∧ size ≤ pagePart vaddr

instance (endPhysical vaddr size : Nat) :
    Decidable (TransferMapInBounds endPhysical vaddr size) :=
  instDecidableAnd

/-- `co_monitor_host_linuxvm_transfer_map`: the frame it maps. -/
def coMonitorHostLinuxvmTransferMap (vaddr size : Nat) (w : World) : Except CoRc Nat :=
  if TransferMapInBounds w.monitor.endPhysical vaddr size then coMonitorGetPfn vaddr w
  else .error .transferOffBounds

variable {δ : Type}

/-- Maps a frame and calls the transfer function on its part of the range. -/
def transferPage (func : TransferFunc δ) (pfn vaddr oneCopy : Nat) (s : Transfer δ) :
    Step (Transfer δ) :=
  let r := func (pfn * coArchPageSize + vaddr % coArchPageSize) oneCopy (s.mem, s.hostData)
  (r.1, { mem := r.2.1, hostData := r.2.2, mapped := s.mapped ++ [(vaddr, pfn)] })

/-- The loop of `co_monitor_host_linuxvm_transfer`; the first number bounds its iterations. -/
def transferLoop (w : World) (func : TransferFunc δ) :
    Nat → Nat → Nat → Transfer δ → Step (Transfer δ)
  | 0, _, _, s => (.ok, s)
  | fuel + 1, vaddr, size, s =>
    if size = 0 then (.ok, s)
    else
      match coMonitorGetPfn vaddr w with
      | .error rc => (rc, s)
      | .ok pfn =>
        let oneCopy := min (pagePart vaddr) size
        (transferPage func pfn vaddr oneCopy s).andThen
          (transferLoop w func fuel ((vaddr + oneCopy) % wordSize) (size - oneCopy))

/-- `co_monitor_host_linuxvm_transfer`. Every turn moves at least one byte, so `size` turns are
enough. -/
def coMonitorHostLinuxvmTransfer (func : TransferFunc δ) (vaddr size : Nat) (hostData : δ)
    (w : World) : Step (Transfer δ) :=
  if TransferInBounds w.monitor.endPhysical vaddr size then
    transferLoop w func size vaddr size ⟨w.mem, hostData, []⟩
  else (.transferOffBounds, ⟨w.mem, hostData, []⟩)

/-- `co_monitor_transfer_dir_t`. -/
inductive TransferDir where
  | fromHost
  | fromLinux
  deriving DecidableEq, Repr

/-- A host buffer and the position `*host` in it. -/
structure HostCursor where
  buffer : ByteMem
  position : Nat

/-- `co_monitor_transfer_memcpy`. -/
def coMonitorTransferMemcpy (dir : TransferDir) : TransferFunc HostCursor :=
  fun linuxvm size (mem, host) =>
    match dir with
    | .fromHost =>
      (.ok, mem.copyBytes linuxvm size fun i => host.buffer (host.position + i),
        { host with position := host.position + size })
    | .fromLinux =>
      (.ok, mem,
        { buffer := host.buffer.copyBytes host.position size fun i => mem (linuxvm + i)
          position := host.position + size })

/-- `co_monitor_host_to_linuxvm`. -/
def coMonitorHostToLinuxvm (source : ByteMem) (target size : Nat) (w : World) : Step World :=
  let r := coMonitorHostLinuxvmTransfer (coMonitorTransferMemcpy .fromHost) target size ⟨source, 0⟩ w
  (r.1, w.setMem r.2.mem)

/-- `co_monitor_linuxvm_to_host`: the memory it leaves, and the host buffer. -/
def coMonitorLinuxvmToHost (source : Nat) (target : ByteMem) (size : Nat) (w : World) :
    Step (World × ByteMem) :=
  let r := coMonitorHostLinuxvmTransfer (coMonitorTransferMemcpy .fromLinux) source size ⟨target, 0⟩ w
  (r.1, w.setMem r.2.mem, r.2.hostData.buffer)

end CoLinux
