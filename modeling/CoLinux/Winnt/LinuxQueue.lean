import CoLinux.Kernel.MessageChannel
import CoLinux.Winnt.ManagerWrite

/-!
# Who fills the queue of the guest

`linux_message_queue` has four producers besides the user's writes: completed block and SCSI
requests, received network packets and changes of the network media. Each builds its message
itself; only the packet length of `co_conet_proto_receive_packet` comes from outside.
-/

namespace CoLinux

open Lib

abbrev coModuleConet0 : Nat := 8
abbrev coModuleCobd0 : Nat := 24
abbrev coModuleCoscsi0 : Nat := 120
abbrev conetMaxPacketSize : Nat := 1514

/-- The messages of the driver's own threads and callbacks. -/
inductive DriverMessage where
  /-- `transfer_file_block_callback`: `co_block_intr_t`. -/
  | blockCompletion (unit irqRequest uptodate : Nat)
  /-- `scsi_send_intr`: `co_scsi_intr_t`. -/
  | scsiIntr (unit ctx result delta : Nat)
  /-- `co_conet_proto_receive` with the whole packet at hand, and
  `co_conet_proto_transfer_complete` otherwise; both are refused above the packet size. -/
  | conetReceive (unit packetSize : Nat) (packet : ByteMem)
  /-- `co_conet_proto_receive_packet`. -/
  | conetReceivePacket (unit packetSize : Nat) (packet : ByteMem)
  /-- `co_conet_proto_status_complete`. -/
  | conetStatus (unit connected : Nat)

namespace DriverMessage

/-- A message of the network device, its packet behind the two headers. -/
def conetMessage (type unit packetSize : Nat) (packet : ByteMem) : CoMessage :=
  coMessage (coModuleConet0 + unit) coModuleLinux 0 type
    ((sizeofCoLinuxMessage + packetSize) % wordSize)
    (coLinuxMessage coDeviceNetwork unit packetSize packet)

/-- The message as its sender builds it; `none` where the sender drops the packet. -/
def message : DriverMessage → Option CoMessage
  | blockCompletion unit irqRequest uptodate =>
    some (coMessage (coModuleCobd0 + unit) coModuleLinux 0 1 (sizeofCoLinuxMessage + 8)
      (coLinuxMessage coDeviceBlock unit 8
        (ByteMem.writeWords (fun _ => 0) 0 2 fun i => if i = 0 then irqRequest else uptodate)))
  | scsiIntr unit ctx result delta =>
    some (coMessage coModuleCoscsi0 coModuleLinux 0 1 (sizeofCoLinuxMessage + 12)
      (coLinuxMessage coDeviceScsi unit 0
        (ByteMem.writeWords (fun _ => 0) 0 3 fun
          | 0 => ctx
          | 1 => result
          | _ => delta)))
  | conetReceive unit packetSize packet =>
    if conetMaxPacketSize < packetSize then none else some (conetMessage 1 unit packetSize packet)
  | conetReceivePacket unit packetSize packet =>
    if 0 < packetSize then some (conetMessage 1 unit packetSize packet) else none
  | conetStatus unit connected =>
    some (conetMessage 0 unit 4 (ByteMem.writeWord (fun _ => 0) 0 connected))

end DriverMessage

inductive QueueEvent where
  /-- A step of the guest or of the monitor's `iteration`. -/
  | channel (e : ChannelEvent)
  /-- The first `turns` turns of a `manager_write`; `allocation` has the memory of each copy. -/
  | managerWrite (buffer : ByteMem) (length turns : Nat) (allocation : Nat → Option ByteMem)
  | driver (message : DriverMessage) (allocation : Option ByteMem)

/-- The calls of `co_monitor_message_from_user` of one write, in order. -/
def messagesFromUser (allocation : Nat → Option ByteMem) :
    List CoMessage → Nat → Channel → Channel
  | [], _, s => s
  | message :: messages, i, s =>
    messagesFromUser allocation messages (i + 1) (s.messageFromUser message (allocation i))

/-- `co_monitor_message_from_user_free` queues the message itself; a copy of it has the same
header and data. -/
def queueStep (e : QueueEvent) (s : Channel) : Channel :=
  match e with
  | .channel e => s.step e
  | .managerWrite buffer length turns allocation =>
    messagesFromUser allocation (managerWrite buffer length turns).handed 0 s
  | .driver message allocation =>
    match message.message with
    | none => s
    | some message => s.messageFromUser message allocation

/-- Every queued message fits the io buffer, and whenever the buffer is free and something is
queued, `callback_return_messages` takes at least one message off the queue. -/
def Unblocked (s : Channel) : Prop :=
  (∀ m ∈ s.linuxMessageQueue, sizeofCoMessage + m.size ≤ ioBufferCapacity) ∧
    (s.ioBuffer.messagesWaiting = 0 → s.linuxMessageQueue ≠ [] →
      (callbackReturnMessages s.toMessageState).linuxMessageQueue.length <
        s.linuxMessageQueue.length)

/-- The condition on a step: user writes hand over only messages for Linux that fit, and NDIS
indicates no packet that does not. -/
def FittingInput : QueueEvent → Prop
  | .channel (.messageFromUser _ _) => False
  | .channel _ => True
  | .managerWrite buffer length turns _ =>
    ∀ m ∈ (managerWrite buffer length turns).handed, m.toModule = coModuleLinux →
      sizeofCoMessage + m.size ≤ ioBufferCapacity
  | .driver (.conetReceivePacket _ packetSize _) _ =>
    sizeofCoMessage + sizeofCoLinuxMessage + packetSize ≤ ioBufferCapacity
  | .driver _ _ => True

/-- The first half of `Unblocked`. -/
def QueueFits (s : Channel) : Prop :=
  ∀ m ∈ s.linuxMessageQueue, sizeofCoMessage + m.size ≤ ioBufferCapacity

variable {s : Channel}

theorem QueueFits.unblocked (h : QueueFits s) : Unblocked s := by
  refine ⟨h, fun idle queued => ?_⟩
  obtain ⟨m, queue, head⟩ := List.exists_cons_of_ne_nil queued
  have fits := h m (by rw [head]; exact List.mem_cons_self)
  apply callbackReturnMessages_pops idle head
  rw [CoMessage.totalSize_eq (Nat.lt_of_le_of_lt fits (by decide))]
  exact fits

theorem QueueFits.messageFromUser (h : QueueFits s) {m : CoMessage}
    (fits : m.toModule = coModuleLinux → sizeofCoMessage + m.size ≤ ioBufferCapacity)
    (allocation : Option ByteMem) : QueueFits (s.messageFromUser m allocation) := by
  unfold Channel.messageFromUser
  by_cases linux : m.toModule = coModuleLinux
  · rw [if_pos linux]
    cases allocation with
    | none => exact h
    | some memory =>
      intro m' hm'
      rcases List.mem_append.mp hm' with hm' | hm'
      · exact h m' hm'
      · have small := fits linux
        rw [List.mem_singleton.mp hm',
          coMessageDup_size (Nat.lt_of_le_of_lt small (by decide))]
        exact small
  · rw [if_neg linux]
    exact h

theorem QueueFits.messagesFromUser {messages : List CoMessage}
    (fits : ∀ m ∈ messages, m.toModule = coModuleLinux →
      sizeofCoMessage + m.size ≤ ioBufferCapacity) (allocation : Nat → Option ByteMem) (i : Nat)
    {s : Channel} (h : QueueFits s) : QueueFits (messagesFromUser allocation messages i s) := by
  induction messages generalizing i s with
  | nil => exact h
  | cons m messages ih =>
    exact ih (fun m' hm' => fits m' (List.mem_cons_of_mem _ hm')) (i + 1)
      (h.messageFromUser (fits m List.mem_cons_self) (allocation i))

/-- The guest and the packing loop put nothing on the queue. -/
theorem channelStep_queue {e : ChannelEvent} (quiet : ∀ m a, e ≠ .messageFromUser m a)
    (s : Channel) : (s.step e).linuxMessageQueue <:+ s.linuxMessageQueue := by
  unfold Channel.step
  split
  · exact absurd rfl (quiet _ _)
  · exact List.suffix_refl _
  · unfold Channel.guestSwitch
    repeat' split
    all_goals exact List.suffix_refl _
  · unfold Channel.guestSend
    split_ifs <;> exact List.suffix_refl _
  · unfold Channel.callback
    split_ifs <;> exact List.suffix_refl _
  · unfold Channel.parse
    repeat' split
    all_goals exact List.suffix_refl _
  · unfold Channel.handleIncoming
    repeat' split
    all_goals exact List.suffix_refl _
  · unfold Channel.dispatch
    repeat' split
    all_goals exact List.suffix_refl _
  · unfold Channel.iterate
    split
    · exact callbackReturnMessages_suffix _
    · exact callbackReturnMessages_suffix _
    · exact List.suffix_refl _
  · exact List.suffix_refl _

/-- The driver's own messages are small, the packets of `co_conet_proto_receive_packet` apart. -/
theorem driverMessage_fits {message : DriverMessage} {allocation : Option ByteMem}
    (ok : FittingInput (.driver message allocation)) {m : CoMessage}
    (h : message.message = some m) : sizeofCoMessage + m.size ≤ ioBufferCapacity := by
  have conet : ∀ {type unit packetSize : Nat} {packet : ByteMem},
      sizeofCoMessage + sizeofCoLinuxMessage + packetSize ≤ ioBufferCapacity →
      sizeofCoMessage + (DriverMessage.conetMessage type unit packetSize packet).size ≤
        ioBufferCapacity := by
    intro type unit packetSize packet small
    have whole : sizeofCoLinuxMessage + packetSize < wordSize := by
      simp only [sizeofCoMessage, sizeofCoLinuxMessage, ioBufferCapacity, coVptrIoAreaSize,
        sizeofCoIoBuffer, wordSize] at small ⊢
      omega
    unfold DriverMessage.conetMessage
    rw [Nat.mod_eq_of_lt whole, coMessage_size _ whole, ← Nat.add_assoc]
    exact small
  cases message with
  | blockCompletion unit irqRequest uptodate =>
    rw [← Option.some.inj h, coMessage_size _ (by decide)]
    decide
  | scsiIntr unit ctx result delta =>
    rw [← Option.some.inj h, coMessage_size _ (by decide)]
    decide
  | conetReceive unit packetSize packet =>
    simp only [DriverMessage.message, conetMaxPacketSize] at h
    split_ifs at h with big
    rw [← Option.some.inj h]
    apply conet
    simp only [sizeofCoMessage, sizeofCoLinuxMessage, ioBufferCapacity, coVptrIoAreaSize,
      sizeofCoIoBuffer]
    omega
  | conetReceivePacket unit packetSize packet =>
    simp only [DriverMessage.message] at h
    split_ifs at h
    rw [← Option.some.inj h]
    exact conet ok
  | conetStatus unit connected =>
    rw [← Option.some.inj h]
    exact conet (by decide)

theorem QueueFits.step (h : QueueFits s) {e : QueueEvent} (ok : FittingInput e) :
    QueueFits (queueStep e s) := by
  cases e with
  | channel e =>
    have quiet : ∀ m a, e ≠ .messageFromUser m a := by
      rintro m a rfl
      exact ok
    intro m hm
    exact h m ((channelStep_queue quiet s).subset hm)
  | managerWrite buffer length turns allocation => exact h.messagesFromUser ok allocation 0
  | driver message allocation =>
    simp only [queueStep]
    cases hm : message.message with
    | none => exact h
    | some m => exact h.messageFromUser (fun _ => driverMessage_fits ok hm) allocation

/-- **No head-of-line blocking.** In every run whose writes and packets fit, every queued
message fits the io buffer and the queue moves whenever the buffer is free. -/
theorem linuxQueue_unblocked (buffer tempStorage : ByteMem) {es : List QueueEvent}
    (fitting : ∀ e ∈ es, FittingInput e) :
    Unblocked (run queueStep es (Channel.boot buffer tempStorage)) := by
  have start : QueueFits (Channel.boot buffer tempStorage) := by simp [QueueFits, Channel.boot]
  have allowed : RunOk queueStep (fun _ e => FittingInput e) es (Channel.boot buffer tempStorage) :=
    runOk_of_forall fitting
  have inv : QueueFits (run queueStep es (Channel.boot buffer tempStorage)) :=
    run_invariant (fun _ _ h ok => h.step ok) start allowed
  exact inv.unblocked

/-- One write of a key press. -/
def keyWriteRun : List QueueEvent := [.managerWrite keyWrite 37 2 fun _ => some fun _ => 0]

theorem linuxQueue_unblocked_keyWrite :
    Unblocked (run queueStep keyWriteRun (Channel.boot (fun _ => 0) fun _ => 0)) := by
  refine linuxQueue_unblocked (fun _ => 0) (fun _ => 0) fun e he => ?_
  rw [List.mem_singleton.mp he]
  have handed : (managerWrite keyWrite 37 2).handed = [messageAt keyWrite 0] := rfl
  intro m hm
  rw [handed] at hm
  rw [List.mem_singleton.mp hm]
  decide +kernel

/-- A complete record of 65533 bytes, one more than the io buffer holds. -/
def oversizeWrite : ByteMem := coMessage 2 0 1 1 65513 (coLinuxMessage 2 0 65501 fun _ => 0)

/-- The record is queued and never leaves the queue again. -/
theorem oversizeWrite_blocks :
    ¬Unblocked (run queueStep
      [.managerWrite oversizeWrite 65533 2 fun _ => some fun _ => 0]
      (Channel.boot (fun _ => 0) fun _ => 0)) := by
  rintro ⟨-, moves⟩
  have queued : (run queueStep [.managerWrite oversizeWrite 65533 2 fun _ => some fun _ => 0]
      (Channel.boot (fun _ => 0) fun _ => 0)).linuxMessageQueue.length = 1 := by decide +kernel
  have stuck : (callbackReturnMessages (run queueStep
      [.managerWrite oversizeWrite 65533 2 fun _ => some fun _ => 0]
      (Channel.boot (fun _ => 0) fun _ => 0)).toMessageState).linuxMessageQueue.length = 1 := by
    decide +kernel
  have shorter := moves (by decide +kernel) (List.ne_nil_of_length_pos (by rw [queued]; decide))
  rw [queued, stuck] at shorter
  contradiction

end CoLinux
