import CoLinux.Kernel.MessageBatch
import CoLinux.Lib.Run

/-!
# The message channel between the monitor and the guest

One io buffer carries batches of messages to the guest and single messages from it. The state
has the monitor's queue, the shared pages and the guest's side of the channel; a step is one
uninterrupted piece of the monitor's `iteration`, of the guest's `co_callback` and
`co_send_message`, or of a host thread that queues a message. The two `linux_message_queue`
users hold its mutex, so each of them is one step.
-/

namespace CoLinux

open Lib

/-- `co_operation_t`. -/
inductive CoOperation where
  | empty
  | start
  | idle
  | terminate
  | messageToMonitor
  | messageFromMonitor
  | forwardInterrupt
  | device
  | getTime
  | debugLine
  | getHighPrecTime
  | tracePoint
  | freePages
  | allocPages
  | getpp
  deriving DecidableEq, Repr

/-- Where the guest goes on when it is switched to. -/
inductive GuestPoint where
  /-- In ordinary code. -/
  | running
  /-- In the loop of `co_callback`, with interrupts off. -/
  | parsing (offset ioSize : Nat)
  deriving DecidableEq

/-- Who runs, and where. -/
inductive Phase where
  | guest
  /-- In `iteration`, behind `co_host_switch_wrapper`. -/
  | switched
  /-- Between two calls of `iteration`. -/
  | returned
  /-- The guest, back from an idle or interrupt switch, before `co_callback`. -/
  | callback
  | terminated
  /-- A `BUG_ON` of the guest was hit. -/
  | bug
  deriving DecidableEq

structure Channel extends MessageState where
  /-- `co_passage_page->operation`. -/
  operation : CoOperation
  coMessagesActive : Bool
  tempStorage : ByteMem
  /-- `co_incoming_messages`. -/
  incoming : List (List UInt8)
  /-- What `co_handle_incoming_messages` has taken off `co_incoming_messages`, oldest first. -/
  handled : List (List UInt8)
  phase : Phase
  point : GuestPoint
  /-- What `incoming_message` was called on, oldest first. -/
  toHost : List (List UInt8)
  /-- How often `co_send_message_save` returned `NULL`. -/
  droppedSends : Nat

inductive ChannelEvent where
  /-- `co_monitor_message_from_user`; `allocation`: the memory `co_message_dup_to_queue` gets. -/
  | messageFromUser (message : CoMessage) (allocation : Option ByteMem)
  /-- `initcall_message_queues` sets `co_messages_active`. -/
  | activate
  /-- The guest sets an operation and switches. -/
  | guestSwitch (operation : CoOperation)
  /-- `co_send_message`. -/
  | guestSend (message : CoMessage)
  /-- `co_callback` up to its loop. -/
  | callback
  /-- A turn of the loop of `co_callback`; `allocated`: `kmalloc` succeeds. -/
  | parse (allocated : Bool)
  /-- A turn of the loop of `co_handle_incoming_messages`. -/
  | handleIncoming
  /-- `iteration` behind the switch; `params0`: what a request leaves in `params[0]`. -/
  | dispatch (params0 : Nat)
  /-- `iteration` up to and with the switch. -/
  | iterate

namespace Channel

/-- `co_monitor_message_from_user`. -/
def messageFromUser (s : Channel) (message : CoMessage) (allocation : Option ByteMem) : Channel :=
  if message.toModule = coModuleLinux then
    match allocation with
    | none => s
    | some memory =>
      { s with linuxMessageQueue := s.linuxMessageQueue ++ [coMessageDup memory message] }
  else s

/-- The end of `initcall_message_queues`. -/
def activate (s : Channel) : Channel := { s with coMessagesActive := true }

/-- Idle and interrupt switches leave ordinary code only: the loop of `co_callback` runs with
interrupts off. -/
def guestSwitch (s : Channel) (operation : CoOperation) : Channel :=
  match operation with
  | .idle | .forwardInterrupt =>
    if s.point = .running then { s with operation, phase := .switched } else s
  | .empty | .start | .messageToMonitor | .messageFromMonitor => s
  | .terminate | .device | .getTime | .debugLine | .getHighPrecTime | .tracePoint | .freePages
  | .allocPages | .getpp => { s with operation, phase := .switched }

/-- `co_send_message` up to the switch. -/
def guestSend (s : Channel) (message : CoMessage) : Channel :=
  if ioBufferCapacity < sizeofCoMessage + message.size then { s with phase := .bug }
  else if s.ioBuffer.messagesWaiting ≠ 0 then { s with droppedSends := s.droppedSends + 1 }
  else
    { s with
      operation := .messageToMonitor
      ioBuffer :=
        { messagesWaiting := 1
          buffer := s.ioBuffer.buffer.copyBytes 0 message.totalSize message }
      phase := .switched }

/-- `co_callback` up to its loop. -/
def callback (s : Channel) : Channel :=
  if s.operation ≠ .messageFromMonitor then { s with phase := .guest }
  else if s.coMessagesActive = true ∧ 0 < s.params0 ∧ s.params0 ≤ coVptrIoAreaSize then
    { s with
      tempStorage := s.tempStorage.copyBytes 0 s.params0 s.ioBuffer.buffer
      ioBuffer := { s.ioBuffer with messagesWaiting := 0 }
      phase := .guest
      point := .parsing 0 s.params0 }
  else { s with ioBuffer := { s.ioBuffer with messagesWaiting := 0 }, phase := .guest }

/-- A turn of the loop of `co_callback`, or its end. -/
def parse (s : Channel) (offset ioSize : Nat) (allocated : Bool) : Channel :=
  if offset < ioSize then
    match coCallbackMessage s.tempStorage offset with
    | none => { s with phase := .bug }
    | some message =>
      { s with
        incoming := coMessageAddToIncoming allocated message s.incoming
        point := .parsing (offset + message.totalSize) ioSize }
  else { s with point := .running }

/-- `co_handle_incoming_messages`; what the device handlers do with a message is not modelled. -/
def handleIncoming (s : Channel) : Channel :=
  match s.incoming with
  | [] => s
  | message :: incoming =>
    if s.coMessagesActive = true then { s with incoming, handled := s.handled ++ [message] }
    else s

/-- The second half of `iteration`. -/
def dispatch (s : Channel) (params0 : Nat) : Channel :=
  match s.operation with
  | .terminate => { s with phase := .terminated }
  | .messageToMonitor =>
    let message : CoMessage := s.ioBuffer.buffer
    { s with
      toHost := if message.toModule < coModulesMax then s.toHost ++ [message.bytes] else s.toHost
      ioBuffer := { s.ioBuffer with messagesWaiting := 0 }
      phase := .returned }
  | .device | .getTime | .getHighPrecTime | .getpp => { s with params0, phase := .returned }
  | _ => { s with phase := .returned }

/-- The first half of `iteration`. -/
def iterate (s : Channel) : Channel :=
  match s.operation with
  | .forwardInterrupt | .idle =>
    { s with
      toMessageState := callbackReturnMessages s.toMessageState
      operation := .messageFromMonitor
      phase := .callback }
  | _ => { s with phase := .guest }

/-- One step. An event that cannot happen in the phase changes nothing. -/
def step (e : ChannelEvent) (s : Channel) : Channel :=
  match e, s.phase, s.point with
  | .messageFromUser message allocation, _, _ => s.messageFromUser message allocation
  | .activate, .guest, .running => s.activate
  | .guestSwitch operation, .guest, _ => s.guestSwitch operation
  | .guestSend message, .guest, _ => s.guestSend message
  | .callback, .callback, _ => s.callback
  | .parse allocated, .guest, .parsing offset ioSize => s.parse offset ioSize allocated
  | .handleIncoming, .guest, .running => s.handleIncoming
  | .dispatch params0, .switched, _ => s.dispatch params0
  | .iterate, .returned, _ => s.iterate
  | _, _, _ => s

/-- The channel when `start` has set up the guest. -/
def boot (buffer tempStorage : ByteMem) : Channel where
  linuxMessageQueue := []
  ioBuffer := { messagesWaiting := 0, buffer }
  params0 := 0
  operation := .start
  coMessagesActive := false
  tempStorage
  incoming := []
  handled := []
  phase := .returned
  point := .running
  toHost := []
  droppedSends := 0

/-- The messages that have left the queue and are not yet on the guest's incoming list: the
batch in the io buffer, or what is left of it in the guest's copy. -/
def inTransit (s : Channel) : List (List UInt8) :=
  match s.phase, s.point with
  | .callback, _ => (coMessageFraming.split (s.ioBuffer.buffer.slice 0 s.params0)).1
  | _, .running => []
  | _, .parsing offset ioSize =>
    (coMessageFraming.split (s.tempStorage.slice offset (ioSize - offset))).1

/-- The message of the guest in the io buffer that the monitor has not looked at. -/
def outgoing (s : Channel) : List (List UInt8) :=
  if s.phase = .switched ∧ s.operation = .messageToMonitor then
    [CoMessage.bytes s.ioBuffer.buffer]
  else []

end Channel

end CoLinux
