import CoLinux.Winnt.LinuxQueue
import CoLinux.Lib.Ledger

/-!
# Packets from the bridged network (`os/winnt/kernel/conet.c`)

NDIS indicates a packet as a header and the beginning of what follows. If that is all,
`co_conet_proto_receive` sends it to the guest at once; otherwise it asks for the remainder, and
`co_conet_proto_transfer_complete` sends the whole, when NDIS calls it or when the transfer was done
at once.
-/

namespace CoLinux

open Lib

/-! ## What NDIS has -/

inductive NdisStatus
  | success
  | pending
  | resources
  | failure
  deriving DecidableEq, Repr

/-- What is indicated: the buffers of the header and of the lookahead part, and the rest of the
packet. The header has the two addresses in it. -/
structure Indication where
  header : List UInt8
  lookAhead : List UInt8
  remainder : List UInt8
  addresses : 12 ≤ header.length
  inMemory : header.length + (lookAhead.length + remainder.length) < wordSize

namespace Indication

variable (f : Indication)

def headerBufferSize : Nat := f.header.length

def lookAheadBufferSize : Nat := f.lookAhead.length

def packetSize : Nat := f.lookAhead.length + f.remainder.length

/-- The packet itself. -/
def packet : List UInt8 := f.header ++ (f.lookAhead ++ f.remainder)

end Indication

/-- What becomes of `NdisTransferData`: its status and its length, and those that NDIS gives the
handler if the status is that it is pending. -/
structure TransferOutcome where
  returned : NdisStatus × Nat
  completed : NdisStatus × Nat

/-- The status and the length in the end. -/
def TransferOutcome.final (o : TransferOutcome) : NdisStatus × Nat :=
  if o.returned.1 = .pending then o.completed else o.returned

/-- An `NDIS_BUFFER`: a part of `packet_buffer`. -/
structure NdisBuffer where
  start : Nat
  length : Nat
  deriving DecidableEq, Repr

/-- What the handlers call of NDIS, which has the descriptor of a packet in a `Ψ`. -/
structure Ndis (Ψ : Type) where
  /-- The buffers that are chained to a packet. -/
  buffers : Ψ → List NdisBuffer
  /-- What `NdisAllocatePacket` makes. -/
  newPacket : Ψ
  chainBufferAtFront : Ψ → NdisBuffer → Ψ
  chainBufferAtBack : Ψ → NdisBuffer → Ψ
  unchainBufferAtFront : Ψ → Option NdisBuffer × Ψ
  queryPacketLength : Ψ → Nat
  /-- `packet_buffer` when the transfer is over: `transferData f bytesToSkip bytesToTransfer`. -/
  transferData : Indication → Nat → Nat → Ψ → TransferOutcome → ByteMem → ByteMem
  /-- A buffer that is unchained is no longer in the chain. -/
  unchain_lt : ∀ {packet packet' b}, unchainBufferAtFront packet = (some b, packet') →
    (buffers packet').length < (buffers packet).length

/-- NDIS as it is documented: the chain is a list of buffers, and a transfer that succeeds fills the
first one with the packet's data behind the bytes to skip. -/
structure Ndis.Documented {Ψ : Type} (ndis : Ndis Ψ) : Prop where
  newPacket : ndis.buffers ndis.newPacket = []
  front : ∀ packet b, ndis.buffers (ndis.chainBufferAtFront packet b) = b :: ndis.buffers packet
  back : ∀ packet b, ndis.buffers (ndis.chainBufferAtBack packet b) = ndis.buffers packet ++ [b]
  unchain : ∀ packet, (ndis.unchainBufferAtFront packet).1 = (ndis.buffers packet).head? ∧
    ndis.buffers (ndis.unchainBufferAtFront packet).2 = (ndis.buffers packet).tail
  length : ∀ packet,
    ndis.queryPacketLength packet = ((ndis.buffers packet).map NdisBuffer.length).sum
  outside : ∀ f skip count packet o m b, (ndis.buffers packet).head? = some b →
    ∀ i, i < b.start ∨ b.start + b.length ≤ i → ndis.transferData f skip count packet o m i = m i
  transferred : ∀ f skip count packet o m b, (ndis.buffers packet).head? = some b →
    o.final.1 = .success → ∀ i < o.final.2, i < count → i < b.length →
      ndis.transferData f skip count packet o m (b.start + i) =
        ByteMem.ofList (f.lookAhead ++ f.remainder) (skip + i)

/-- `conet_packet_t`. -/
structure ConetPacket (Ψ : Type) where
  ndisPacket : Ψ
  transferStatus : NdisStatus
  bytesTransferred : Nat
  packetBuffer : ByteMem

inductive ConetResource
  | packet
  | buffer (b : NdisBuffer)
  /-- The entry in `pending_transfer_list`. -/
  | pendingEntry
  deriving DecidableEq

/-- What a packet's callbacks do: what they hold, and the messages in their work items. -/
structure ConetRun where
  ledger : Ledger ConetResource
  queued : List CoMessage

/-- Which allocations succeed, and what is in new packets and messages. -/
structure ConetAnswers where
  packetMemory : ByteMem
  messageMemory : ByteMem
  packet : Bool
  headerBuffer : Bool
  transferBuffer : Bool
  message : Bool
  context : Bool
  workItem : Bool

/-- What the callbacks read of `conet_adapter_t`. -/
structure ConetAdapter where
  conetUnit : Nat
  macaddr : List UInt8

namespace ConetRun

def acquire (r : ConetRun) (q : ConetResource) : ConetRun := { r with ledger := r.ledger.acquire q }

def release (r : ConetRun) (q : ConetResource) : ConetRun := { r with ledger := r.ledger.release q }

end ConetRun

/-! ## The handlers -/

variable {Ψ : Type} (ndis : Ndis Ψ) (adapter : ConetAdapter) (g : ConetAnswers)

/-- `ETH_IS_MULTICAST`. -/
def ethIsMulticast (dest : List UInt8) : Bool := dest.head?.any fun b => b &&& 1 = 1

/-- `co_conet_proto_filter_packet`, for what starts at a pointer. -/
def coConetProtoFilterPacket (m : ByteMem) : Bool :=
  let dest := m.slice 0 6
  let source := m.slice 6 6
  if dest = adapter.macaddr then true
  else if ethIsMulticast dest then (if source = adapter.macaddr then false else true)
  else false

/-- The struct `conet_message` with `size` bytes of data. -/
def conetReceived (size : Nat) (data : ByteMem) : CoMessage :=
  DriverMessage.conetMessage 1 adapter.conetUnit size data

/-- `co_conet_transfer_message`, and the routine of its work item, which gives the message to the
monitor. -/
def coConetTransferMessage (message : CoMessage) (r : ConetRun) : ConetRun :=
  if g.context then
    if g.workItem then { r with queued := r.queued ++ [message] } else r
  else r

/-- `co_FreeBuffersAndPacket`. -/
def coFreeBuffersAndPacket (packet : Ψ) (r : ConetRun) : ConetRun :=
  match _unchained : ndis.unchainBufferAtFront packet with
  | (none, _) => r.release .packet
  | (some b, packet) => coFreeBuffersAndPacket packet (r.release (.buffer b))
termination_by (ndis.buffers packet).length
decreasing_by exact ndis.unchain_lt _unchained

/-- The first buffer, unchained and chained again behind the others. -/
def chainFrontAtBack (packet : Ψ) : Ψ :=
  match ndis.unchainBufferAtFront packet with
  | (none, packet) => packet
  | (some b, packet) => ndis.chainBufferAtBack packet b

/-- `co_conet_proto_transfer_complete`. It does not look at the status and the length it is told. -/
def coConetProtoTransferComplete (packet : ConetPacket Ψ) (_status : NdisStatus)
    (_bytesTransferred : Nat) (r : ConetRun) : ConetRun :=
  let r := r.release .pendingEntry
  let ndisPacket := chainFrontAtBack ndis packet.ndisPacket
  let totalPacketLength := ndis.queryPacketLength ndisPacket
  let r :=
    if ¬ coConetProtoFilterPacket adapter packet.packetBuffer then r
    else if ¬ g.message then r
    else coConetTransferMessage g (conetReceived adapter totalPacketLength
      (g.messageMemory.copyBytes 0 totalPacketLength packet.packetBuffer)) r
  coFreeBuffersAndPacket ndis ndisPacket r

/-- The header and the lookahead part, moved to one place. -/
def moveParts (f : Indication) (m : ByteMem) : ByteMem :=
  (m.copyBytes 0 f.headerBufferSize (ByteMem.ofList f.header)).copyBytes f.headerBufferSize
    f.lookAheadBufferSize (ByteMem.ofList f.lookAhead)

/-- What `co_conet_proto_receive` returns, and the packet whose transfer is pending. -/
structure ReceiveResult (Ψ : Type) where
  status : NdisStatus
  run : ConetRun
  left : Option (ConetPacket Ψ)

/-- The part of `co_conet_proto_receive` for a packet that is not all there. -/
def receiveRemainder (f : Indication) (o : TransferOutcome) (r : ConetRun) : ReceiveResult Ψ :=
  let headerBuffer : NdisBuffer := ⟨0, f.headerBufferSize + f.lookAheadBufferSize⟩
  let transferBuffer : NdisBuffer :=
    ⟨f.headerBufferSize + f.lookAheadBufferSize, f.packetSize - f.lookAheadBufferSize⟩
  if ¬ g.packet then ⟨.resources, r, none⟩
  else
    let r := r.acquire .packet
    if ¬ g.headerBuffer then ⟨.success, r.release .packet, none⟩
    else
      let r := r.acquire (.buffer headerBuffer)
      let ndisPacket := ndis.chainBufferAtFront ndis.newPacket headerBuffer
      let packetBuffer := moveParts f g.packetMemory
      if ¬ g.transferBuffer then ⟨.success, coFreeBuffersAndPacket ndis ndisPacket r, none⟩
      else
        let ndisPacket := ndis.chainBufferAtFront ndisPacket transferBuffer
        let r := (r.acquire (.buffer transferBuffer)).acquire .pendingEntry
        let packet : ConetPacket Ψ :=
          { ndisPacket := ndisPacket
            transferStatus := o.returned.1
            bytesTransferred := o.returned.2
            packetBuffer := ndis.transferData f f.lookAheadBufferSize
              (f.packetSize - f.lookAheadBufferSize) ndisPacket o packetBuffer }
        if packet.transferStatus ≠ .pending then
          ⟨.success, coConetProtoTransferComplete ndis adapter g packet packet.transferStatus
            packet.bytesTransferred r, none⟩
        else ⟨.success, r, some packet⟩

/-- `co_conet_proto_receive`. -/
def coConetProtoReceive (f : Indication) (o : TransferOutcome) (r : ConetRun) : ReceiveResult Ψ :=
  if conetMaxPacketSize < (f.headerBufferSize + f.packetSize) % wordSize then ⟨.success, r, none⟩
  else if f.lookAheadBufferSize = f.packetSize then
    if ¬ coConetProtoFilterPacket adapter (ByteMem.ofList f.header) then ⟨.success, r, none⟩
    else if ¬ g.message then ⟨.resources, r, none⟩
    else
      ⟨.success, coConetTransferMessage g (conetReceived adapter
        (f.headerBufferSize + f.lookAheadBufferSize) (moveParts f g.messageMemory)) r, none⟩
  else receiveRemainder ndis adapter g f o r

/-- NDIS calls `co_conet_proto_transfer_complete` when a pending transfer is done. -/
def ReceiveResult.finish (o : TransferOutcome) (result : ReceiveResult Ψ) : ConetRun :=
  match result.left with
  | none => result.run
  | some packet =>
    coConetProtoTransferComplete ndis adapter g packet o.completed.1 o.completed.2 result.run

/-- All that is done for a packet. -/
def packetRun (f : Indication) (o : TransferOutcome) : ConetRun :=
  (coConetProtoReceive ndis adapter g f o ⟨.empty, []⟩).finish ndis adapter g o

/-! ## What the handlers are for -/

namespace Indication

variable (f : Indication)

/-- NDIS has indicated the whole packet. -/
def Whole : Prop := f.remainder = []

def Fits : Prop := f.packet.length ≤ conetMaxPacketSize

/-- The destination is the adapter, or several stations and the adapter is not the source. -/
def For (adapter : ConetAdapter) : Prop :=
  f.header.take 6 = adapter.macaddr ∨
    ethIsMulticast (f.header.take 6) = true ∧ (f.header.drop 6).take 6 ≠ adapter.macaddr

/-- The allocations that are made for the packet succeed. -/
def Granted (g : ConetAnswers) : Prop :=
  g.message = true ∧ g.context = true ∧ g.workItem = true ∧
    (f.remainder ≠ [] → g.packet = true ∧ g.headerBuffer = true ∧ g.transferBuffer = true)

/-- The rest of the packet has been transferred. -/
def Transferred (o : TransferOutcome) : Prop :=
  o.final.1 = .success ∧ f.remainder.length ≤ o.final.2

instance : Decidable f.Fits := inferInstanceAs (Decidable (_ ≤ _))

instance (adapter : ConetAdapter) : Decidable (f.For adapter) :=
  inferInstanceAs (Decidable (_ ∨ _))

instance (g : ConetAnswers) : Decidable (f.Granted g) := inferInstanceAs (Decidable (_ ∧ _))

end Indication

/-- The message for a packet. -/
def packetMessage (packet : List UInt8) : CoMessage :=
  conetReceived adapter packet.length (ByteMem.ofList packet)

/-- A packet is handled as it should be: what was acquired for it is given back once, the guest gets
it once, however NDIS has split it, and it does not get what was not transferred. -/
structure ReceiveSound (f : Indication) (o : TransferOutcome) : Prop where
  returned : (packetRun ndis adapter g f o).ledger = .empty
  identical : f.Whole ∨ f.Transferred o → (packetRun ndis adapter g f o).queued.map CoMessage.bytes =
    if f.Fits ∧ f.For adapter ∧ f.Granted g then [(packetMessage adapter f.packet).bytes] else []
  nothing : ¬ f.Whole → ¬ f.Transferred o → (packetRun ndis adapter g f o).queued = []

end CoLinux
