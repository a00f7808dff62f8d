import CoLinux.Linux.Coscsi
import CoLinux.Winnt.HostFile

/-!
# Transfers of SCSI devices (`os/winnt/kernel/scsi.c`)

The work item of a READ or WRITE copies the scatter/gather list of the request from the guest and
transfers its entries one after the other; all of them share one running file offset. It answers
with an interrupt that says how many bytes were not transferred.
-/

namespace CoLinux

open Lib

/-- `struct scatterlist` of the guest, as far as it is read. -/
structure ScatterlistLayout where
  size : Nat
  lengthAt : Nat
  dmaAddressAt : Nat
  lengthInside : lengthAt + 4 ≤ size
  dmaAddressInside : dmaAddressAt + 4 ≤ size

structure SgEntry where
  dmaAddress : Nat
  length : Nat
  deriving DecidableEq

/-- `sg->dma_address + CO_ARCH_KERNEL_OFFSET`. -/
def SgEntry.address (e : SgEntry) : Nat := (e.dmaAddress + coArchKernelOffset) % wordSize

/-- The entries of a list in memory. -/
def sgEntries (layout : ScatterlistLayout) (buf : ByteMem) (count : Nat) : List SgEntry :=
  (List.range count).map fun x =>
    ⟨buf.readWord (x * layout.size + layout.dmaAddressAt),
      buf.readWord (x * layout.size + layout.lengthAt)⟩

/-- A value that is stored in an `int`. -/
def asInt (x : Int) : Int := Int.bmod x wordSize

/-- What `_scsi_dio` has to release. -/
inductive ScsiResource where
  /-- The copy of the list. -/
  | sgBuf
  | workItem
  /-- The slot of `io_queue`. -/
  | slot
  deriving DecidableEq

/-- A message to the guest from `scsi_send_intr`. -/
structure ScsiIntr where
  unit : Nat
  ctx : Nat
  result : Int
  delta : Int
  deriving DecidableEq

/-- `_scsi_dio` at work: the guest's memory, the file with its running offset, what is not yet
released and what was sent. -/
structure ScsiDio where
  world : World
  data : FileIo
  bytesReq : Int
  ledger : Ledger ScsiResource
  sent : List ScsiIntr

/-- `scsi_transfer_file_block`. -/
def scsiTransferFileBlock (host : Nat → IoAnswer) (dir : TransferDir) : TransferFunc FileIo :=
  fun linuxvm size s =>
    let io := zwTransferFile host dir linuxvm size s
    if io.1.status ≠ .success then (coStatusConvert io.1.status, io.2)
    else (.ok, io.2.1, { io.2.2 with offset := (io.2.2.offset + size) % quadSize })

namespace ScsiDio

/-- A transfer of an entry has ended. -/
def withEntry (e : SgEntry) (r : Transfer FileIo) (s : ScsiDio) : ScsiDio :=
  { s with
    world := s.world.setMem r.mem
    data := r.hostData
    bytesReq := asInt (s.bytesReq + e.length) }

/-- The loop over the entries. -/
def transferEntries (host : Nat → IoAnswer) (dir : TransferDir) :
    List SgEntry → ScsiDio → Step ScsiDio
  | [], s => (.ok, s)
  | e :: entries, s =>
    let r := coMonitorHostLinuxvmTransfer (scsiTransferFileBlock host dir) e.address e.length
      s.data s.world
    if r.1 = .ok then transferEntries host dir entries (s.withEntry e r.2)
    else (r.1, s.withEntry e r.2)

/-- The part behind `io_done`. -/
def ioDone (unit : Nat) (io : CoScsiIo) (r : Step ScsiDio) : ScsiDio :=
  let moved := asInt (r.2.data.offset - io.offset)
  { r.2 with
    sent := r.2.sent ++
      [⟨unit, io.scp, if r.1 = .ok then 0 else 1, asInt (r.2.bytesReq - moved)⟩]
    ledger := (r.2.ledger.release .workItem).release .slot }

def release (s : ScsiDio) (r : ScsiResource) : ScsiDio := { s with ledger := s.ledger.release r }

/-- The copy of the list of a request, into a block that holds `heap`. -/
def copyList (layout : ScatterlistLayout) (heap : ByteMem) (io : CoScsiIo) (w : World) :
    Step (World × ByteMem) :=
  coMonitorLinuxvmToHost io.sg heap (io.count * layout.size % wordSize) w

/-- `_scsi_dio`. `granted` is the answer of `co_os_malloc`, and `heap` what its block holds. An
unreadable list is not freed. -/
def scsiDio (layout : ScatterlistLayout) (host : Nat → IoAnswer) (granted : Bool)
    (heap : ByteMem) (unit : Nat) (io : CoScsiIo) (s : ScsiDio) : ScsiDio :=
  let dir := if io.write ≠ 0 then TransferDir.fromLinux else .fromHost
  if granted then
    let copy := copyList layout heap io s.world
    let s := { s with world := copy.2.1, ledger := s.ledger.acquire .sgBuf }
    if copy.1 = .ok then
      let r := transferEntries host dir (sgEntries layout copy.2.2 io.count) s
      ioDone unit io (r.1, r.2.release .sgBuf)
    else ioDone unit io (copy.1, s)
  else ioDone unit io (.error, s)

/-- The work item starts with its slot of the queue. -/
def start (w : World) (backing : ByteMem) (io : CoScsiIo) : ScsiDio where
  world := w
  data := ⟨backing, io.offset, []⟩
  bytesReq := 0
  ledger := ⟨[.slot, .workItem], []⟩
  sent := []

end ScsiDio

/-! ## What a request has to do -/

/-- The bytes of the guest's memory from the list of a request on. -/
def sgMemory (io : CoScsiIo) (w : World) : ByteMem := fun i => w.mem (w.byteSlot (io.sg + i))

/-- The list of a request, as it stands in the guest's memory. -/
def sgList (layout : ScatterlistLayout) (io : CoScsiIo) (w : World) : List SgEntry :=
  sgEntries layout (sgMemory io w) io.count

/-- The guest's memory has all of the list. -/
structure SgListInGuest (layout : ScatterlistLayout) (io : CoScsiIo) (w : World) : Prop where
  whole : io.count * layout.size < wordSize
  frames : ∀ i < io.count * layout.size, HasFrame w (io.sg + i)

/-- The guest addresses of the bytes of a list, in order. -/
def sgBytes (entries : List SgEntry) : List Nat :=
  entries.flatMap fun e => (List.range e.length).map fun i => (e.address + i) % wordSize

/-- A byte that was moved: which one of the list it is, where host memory keeps it, and its
position in the file. -/
structure MovedByte where
  index : Nat
  slot : Nat
  position : Nat
  deriving DecidableEq

/-- The bytes that calls have moved, `index` bytes of the list being behind. -/
def movedBytes : Nat → List IoCall → List MovedByte
  | _, [] => []
  | index, call :: calls =>
    ((List.range (min call.answer.information call.size)).map fun i =>
        ⟨index + i, call.buffer + i, call.position + i⟩) ++
      movedBytes (index + call.size) calls

/-- The first `n` bytes of a list were moved, in order, and each is one of the guest and one of
the file. -/
structure MovedFirst (w : World) (entries : List SgEntry) (offset n : Nat) (calls : List IoCall) :
    Prop where
  le : n ≤ (sgBytes entries).length
  located : ∀ k < n, offset + k < maxFileOffset ∧ HasFrame w ((sgBytes entries).getD k 0)
  moved : movedBytes 0 calls = (List.range n).map fun k =>
    ⟨k, w.guestAddress ((sgBytes entries).getD k 0), offset + k⟩

/-- One interrupt with the request's context, everything released, and when the interrupt says
that the request was done and `delta` bytes are left, the others of the guest's list were moved. -/
structure DioSound (layout : ScatterlistLayout) (w : World) (unit : Nat) (io : CoScsiIo)
    (s : ScsiDio) : Prop where
  answered : ∃ result delta, s.sent = [⟨unit, io.scp, result, delta⟩]
  released : s.ledger = Ledger.empty
  moved : ∀ delta, s.sent = [⟨unit, io.scp, 0, delta⟩] →
    SgListInGuest layout io w ∧
      ∃ n : Nat, (n : Int) = (sgBytes (sgList layout io w)).length - delta ∧
        MovedFirst w (sgList layout io w) io.offset n s.data.calls

end CoLinux
