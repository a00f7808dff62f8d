import CoLinux.Kernel.MessageBatch

/-!
# A record on its way to a guest handler

What happens to one record for Linux from `callback_return_messages` through `co_callback` to the
handlers of the network and of the serial device. Each stage has a copy of the record of its own:
the host's queue, the guest's `temp_storage` and the node the guest allocates. What lies behind a
copy is not the record's. The model keeps the byte ranges each stage reads, relative to the start
of its copy.
-/

namespace CoLinux

open Lib

/-- Bytes from a start on. -/
abbrev ByteRange := Nat × Nat

/-- The memory around the copies of a record, and the state of the guest's drivers. -/
structure RecordSite where
  /-- What lies behind the host's copy, in `temp_storage` and behind the node. -/
  hostMemory : ByteMem
  tempStorage : ByteMem
  nodeMemory : ByteMem
  /-- `kmalloc` in `co_message_add_to_incoming` succeeds. -/
  kmalloc : Bool
  /-- `conet_dev[unit]`, with `netif_running`. -/
  conetDev : Nat → Option Bool
  /-- `dev_alloc_skb` succeeds. -/
  skb : Bool
  /-- `cocd_interrupt` is registered and finds `cocd_sem` free. -/
  cocdSem : Bool
  /-- The unit's tty has its `driver_data`. -/
  ttyOpen : Nat → Bool
  /-- The bytes the flip buffer of the tty takes. -/
  flipRoom : Nat

/-! ## `conet_interrupt` -/

/-- A turn of the loop of `conet_interrupt`, or the whole of `cocd_interrupt`. -/
structure HandlerTurn where
  reads : List ByteRange
  /-- How often `co_free_message` is called on the node. -/
  freed : Nat
  crashed : Bool
  /-- The loop goes on with the next message. -/
  goesOn : Bool

/-- `len > 0x10000`, where `len` is the size as an `int`. -/
def BuggyLength (size : Nat) : Prop := 0x10000 < size ∧ size < 0x80000000

instance (size : Nat) : Decidable (BuggyLength size) := instDecidableAnd

/-- What `conet_rx` reads and whether the guest survives it: `skb_put` panics where the length is
negative. -/
def conetRx (g : RecordSite) (m : CoMessage) : List ByteRange × Bool :=
  if BuggyLength m.linuxSize ∨ g.skb = false then ([(28, 4)], false)
  else if 0x80000000 ≤ m.linuxSize then ([(28, 4)], true)
  else ([(28, 4), (32, m.linuxSize)], false)

/-- The body of the loop of `conet_interrupt`. A bad unit ends the interrupt, with the node neither
freed nor in the queue. -/
def conetTurn (g : RecordSite) (m : CoMessage) : HandlerTurn :=
  if coModuleMaxConet ≤ m.unit then
    { reads := [(24, 4)], freed := 0, crashed := false, goesOn := false }
  else if g.conetDev m.unit ≠ some true then
    { reads := [(24, 4)], freed := 1, crashed := false, goesOn := true }
  else if m.type = coMessageTypeString then
    { reads := [(24, 4), (12, 4), (32, 4)], freed := 1, crashed := false, goesOn := true }
  else
    { reads := (24, 4) :: (12, 4) :: (conetRx g m).1
      freed := if (conetRx g m).2 then 0 else 1
      crashed := (conetRx g m).2
      goesOn := !(conetRx g m).2 }

/-- `conet_interrupt`: its turns at the messages of the queue, oldest first. -/
def conetInterrupt (g : RecordSite) : List CoMessage → List HandlerTurn
  | [] => []
  | m :: queue =>
    if (conetTurn g m).goesOn then conetTurn g m :: conetInterrupt g queue else [conetTurn g m]

/-! ## `cocd_interrupt` -/

/-- `cocd_interrupt` with this message at hand. `tty_insert_flip_string` copies what the flip
buffer has room for. -/
def cocdTurn (g : RecordSite) (m : CoMessage) : HandlerTurn where
  reads :=
    if m.unit < coModuleMaxSerial ∧ g.ttyOpen m.unit = true then
      [(24, 4), (28, 4), (32, min m.linuxSize g.flipRoom)]
    else [(24, 4)]
  freed := 1
  crashed := false
  goesOn := false

/-! ## The way to the handlers -/

/-- What has become of a record. -/
structure Handling where
  reads : List ByteRange
  /-- The guest has made its copy. -/
  copied : Bool
  /-- How often the copy was freed. -/
  freed : Nat
  /-- The copy is in the queue of a device. -/
  queued : Bool
  crashed : Bool

/-- The checks of `callback_return_messages`, which `co_callback` repeats as `BUG_ON`s. -/
def IdsInRange (m : CoMessage) : Prop :=
  m.fromModule < coModulesMax ∧ m.toModule < coModulesMax ∧ m.device < coDevicesTotal

instance (m : CoMessage) : Decidable (IdsInRange m) := instDecidableAnd

/-- What the checks read: the device only after the modules. -/
def checkReads (m : CoMessage) : List ByteRange :=
  if m.fromModule < coModulesMax ∧ m.toModule < coModulesMax then [(0, 20), (20, 4)] else [(0, 20)]

/-- The checks of a stage and the copy it makes for the next one. -/
def copyReads (m : CoMessage) : List ByteRange := checkReads m ++ [(0, m.totalSize)]

/-- `co_handle_incoming_message` on the guest's copy, with the interrupt. -/
def coHandleIncomingMessage (g : RecordSite) (m : CoMessage) : Handling :=
  if m.device = coDeviceNetwork then
    { reads := (20, 4) :: (conetTurn g m).reads
      copied := true
      freed := (conetTurn g m).freed
      queued := false
      crashed := (conetTurn g m).crashed }
  else if m.device = coDeviceSerial then
    { reads := (20, 4) :: if g.cocdSem then (cocdTurn g m).reads else []
      copied := true
      freed := if g.cocdSem then (cocdTurn g m).freed else 0
      queued := !g.cocdSem
      crashed := false }
  else if m.device ∈ [coDevicePower, coDeviceKeyboard, coDeviceScsi, coDeviceMouse, coDeviceBlock] then
    { reads := [(20, 4)], copied := true, freed := 0, queued := true, crashed := false }
  else if coDevicesTotal ≤ m.device then
    { reads := [(20, 4)], copied := true, freed := 0, queued := false, crashed := true }
  else { reads := [(20, 4)], copied := true, freed := 1, queued := false, crashed := false }

/-- The host's copy of a record. -/
def hostCopy (g : RecordSite) (m : CoMessage) : CoMessage := coMessageDup g.hostMemory m

/-- The record in `temp_storage`. -/
def tempCopy (g : RecordSite) (m : CoMessage) : CoMessage :=
  coMessageDup g.tempStorage (hostCopy g m)

/-- The guest's copy. -/
def guestCopy (g : RecordSite) (m : CoMessage) : CoMessage :=
  coMessageDup g.nodeMemory (tempCopy g m)

/-- A record for which there is room: `callback_return_messages` drops it or packs it, the loop of
`co_callback` checks it again and copies it, and `co_handle_incoming_messages` dispatches it. -/
def handlePacked (g : RecordSite) (m : CoMessage) : Handling :=
  if IdsInRange (hostCopy g m) then
    if IdsInRange (tempCopy g m) then
      if g.kmalloc then
        { coHandleIncomingMessage g (guestCopy g m) with
          reads := copyReads (hostCopy g m) ++ copyReads (tempCopy g m) ++
            (coHandleIncomingMessage g (guestCopy g m)).reads }
      else
        { reads := copyReads (hostCopy g m) ++ checkReads (tempCopy g m)
          copied := false
          freed := 0
          queued := false
          crashed := false }
    else
      { reads := copyReads (hostCopy g m) ++ checkReads (tempCopy g m)
        copied := false
        freed := 0
        queued := false
        crashed := true }
  else
    { reads := checkReads (hostCopy g m), copied := false, freed := 0, queued := false, crashed := false }

/-- A record for Linux. One that is too long for the io buffer stays in the queue. -/
def handleRecord (g : RecordSite) (m : CoMessage) : Handling :=
  if ioBufferCapacity < (hostCopy g m).totalSize then
    { reads := [(16, 4)], copied := false, freed := 0, queued := false, crashed := false }
  else handlePacked g m

/-! ## The stages are those of the message channel -/

/-- The checks one after the other. -/
theorem idsInRange_ite {α : Type} (m : CoMessage) (accepted refused : α) :
    (if coModulesMax ≤ m.fromModule then refused
      else if coModulesMax ≤ m.toModule then refused
      else if coDevicesTotal ≤ m.device then refused
      else accepted) = if IdsInRange m then accepted else refused := by
  by_cases ids : IdsInRange m
  · rw [if_neg (Nat.not_le.mpr ids.1), if_neg (Nat.not_le.mpr ids.2.1),
      if_neg (Nat.not_le.mpr ids.2.2), if_pos ids]
  · rw [if_neg ids]
    split_ifs with badFrom badTo badDevice
    · rfl
    · rfl
    · rfl
    · exact absurd ⟨Nat.not_le.mp badFrom, Nat.not_le.mp badTo, Nat.not_le.mp badDevice⟩ ids

/-- One turn of the packing loop. -/
theorem packMessages_cons (m : CoMessage) (queue : List CoMessage) (offset : Nat)
    (io : CoIoBuffer) :
    packMessages (m :: queue) offset io =
      if ioBufferCapacity < offset + m.totalSize then ⟨m :: queue, offset, io⟩
      else if IdsInRange m then
        packMessages queue (offset + m.totalSize)
          { messagesWaiting := io.messagesWaiting + 1
            buffer := io.buffer.copyBytes offset m.totalSize m }
      else ⟨queue, offset, io⟩ := by
  rw [packMessages, ← idsInRange_ite]

/-- The checks of the guest are those of the host. -/
theorem coCallbackMessage_eq (tempStorage : ByteMem) (offset : Nat) :
    coCallbackMessage tempStorage offset =
      if IdsInRange fun i => tempStorage (offset + i) then some fun i => tempStorage (offset + i)
      else none :=
  idsInRange_ite _ _ _

end CoLinux
