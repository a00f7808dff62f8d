import CoLinux.Kernel.BlockDevice
import CoLinux.Kernel.Transfer
import CoLinux.Lib.Ledger
import CoLinux.Lib.Run
import Mathlib.Logic.Function.Basic

/-!
# Asynchronous block requests (`kernel/block.c`, `kernel/fileblock.c`, `os/winnt/kernel/block.c`)

A READ or WRITE of the guest starts an I/O of the host, which completes later through a callback.
The callback's context is the message to the guest as well: it goes from the request to the
host, from there to `linux_message_queue`, and is freed when the message is handed to the guest.
Requests are numbered in the order they are made.
-/

namespace CoLinux

open Lib

/-- An `NTSTATUS`. -/
inductive NtStatus where
  | success
  | pending
  | endOfFile
  | noSuchFile
  | objectNameNotFound
  | cannotDelete
  | accessDenied
  | invalidParameter
  /-- Any other status. -/
  | other (code : Nat)
  deriving DecidableEq

/-- `co_status_convert`. -/
def coStatusConvert : NtStatus → CoRc
  | .endOfFile | .pending | .success => .ok
  | .noSuchFile | .objectNameNotFound => .notFound
  | .cannotDelete | .accessDenied => .accessDenied
  | .invalidParameter => .invalidParameter
  | .other _ => .error

/-- A READ or WRITE with the answers of the host. The two differ only in the routine that is
called, `ZwReadFile` or `ZwWriteFile`. -/
structure BlockCall where
  /-- The monitor and the guest's memory at that time. -/
  world : World
  unit : Nat
  write : Bool
  offset : Nat
  address : Nat
  size : Nat
  irqRequest : Nat
  /-- `co_os_malloc` of the context succeeds. -/
  contextGranted : Bool
  /-- `co_os_map` succeeds. -/
  mapGranted : Bool
  /-- What `ZwReadFile` or `ZwWriteFile` returns. -/
  status : NtStatus

/-- A request with what the guest reads back. -/
structure BlockRequest where
  unit : Nat
  irqRequest : Nat
  write : Bool
  offset : Nat
  address : Nat
  size : Nat
  rc : CoBlockRequestRetcode
  async : Bool

/-- The message to the guest, less its constant fields. `request` is the number of the request. -/
structure BlockMessage where
  request : Nat
  unit : Nat
  irqRequest : Nat
  uptodate : Nat

/-- `callback_context_t`. -/
structure CallbackContext where
  msg : BlockMessage
  size : Nat

/-- A call of `ZwReadFile` or `ZwWriteFile` with the file of a unit. -/
structure HostIo where
  request : Nat
  unit : Nat
  write : Bool
  offset : Nat
  /-- The frame that is mapped at `context->page`, which may be null. -/
  page : Option Nat
  /-- Where `context->start` is in the page. -/
  start : Nat
  size : Nat

/-- What a request holds: its context and its mapping of the guest page. -/
inductive BlockResource where
  | context (request : Nat)
  | mapping (request : Nat)
  deriving DecidableEq

structure AsyncBlock where
  /-- `block_devs`. -/
  blockDevs : Nat → Option FileBlockState
  /-- The requests made so far, oldest first. -/
  requests : List BlockRequest
  /-- The I/O the host has not completed. -/
  pending : List CallbackContext
  /-- The contexts in `linux_message_queue`, oldest first. -/
  queue : List CallbackContext
  /-- The messages handed to the guest, oldest first. -/
  delivered : List BlockMessage
  ledger : Ledger BlockResource
  /-- The I/O the host was asked for, oldest first. -/
  ios : List HostIo
  /-- The bytes the host has transferred for a request when it completes it. -/
  transferred : Nat → Nat

namespace AsyncBlock

def acquire (s : AsyncBlock) (r : BlockResource) : AsyncBlock :=
  { s with ledger := s.ledger.acquire r }

def release (s : AsyncBlock) (r : BlockResource) : AsyncBlock :=
  { s with ledger := s.ledger.release r }

/-- The context `co_os_file_block_async_read_write` prepares. -/
def newContext (s : AsyncBlock) (call : BlockCall) : CallbackContext where
  msg :=
    { request := s.requests.length
      unit := call.unit
      irqRequest := call.irqRequest
      uptodate := 0 }
  size := call.size

/-- The I/O of a request whose page is in the frame `pfn`. -/
def hostIo (s : AsyncBlock) (call : BlockCall) (pfn : Nat) : HostIo where
  request := s.requests.length
  unit := call.unit
  write := call.write
  offset := call.offset
  page := if call.mapGranted then some pfn else none
  start := call.address % coArchPageSize
  size := call.size

/-- The part of `co_os_file_block_async_read_write` behind the transfer map. A refused `co_os_map`
is not noticed. -/
def startIo (call : BlockCall) (pfn : Nat) (s : AsyncBlock) : Step AsyncBlock :=
  let s := if call.mapGranted then s.acquire (.mapping s.requests.length) else s
  let s := { s with ios := s.ios ++ [s.hostIo call pfn] }
  if call.status = .pending ∨ call.status = .success then
    (.ok, { s with pending := s.pending ++ [s.newContext call] })
  else
    (coStatusConvert call.status,
      (s.release (.mapping s.requests.length)).release (.context s.requests.length))

/-- `co_os_file_block_async_read_write`. -/
def coOsFileBlockAsyncReadWrite (call : BlockCall) (s : AsyncBlock) : Step AsyncBlock :=
  if call.contextGranted then
    match coMonitorHostLinuxvmTransferMap call.address call.size call.world with
    | .error rc =>
      (rc, (s.acquire (.context s.requests.length)).release (.context s.requests.length))
    | .ok pfn => startIo call pfn (s.acquire (.context s.requests.length))
  else (.outOfMemory, s)

/-- `co_monitor_block_dev_from_index`. -/
def coMonitorBlockDevFromIndex (s : AsyncBlock) (index : Nat) : Option FileBlockState :=
  if coModuleMaxCobd ≤ index then none else s.blockDevs index

/-- The request as the guest reads it back. -/
def answer (call : BlockCall) (rc : CoRc) (async : Bool) : BlockRequest where
  unit := call.unit
  irqRequest := call.irqRequest
  write := call.write
  offset := call.offset
  address := call.address
  size := call.size
  rc := if rc = .ok then .ok else .error
  async := async

/-- `co_monitor_block_request` with `co_monitor_file_block_service`. -/
def coMonitorBlockRequest (call : BlockCall) (s : AsyncBlock) : AsyncBlock :=
  if s.coMonitorBlockDevFromIndex call.unit = some .opened then
    let io := coOsFileBlockAsyncReadWrite call s
    { io.2 with requests := io.2.requests ++ [answer call io.1 true] }
  else { s with requests := s.requests ++ [answer call .error false] }

/-- `transfer_file_block_callback`, up to the unmapping: the context with its outcome. -/
def completed (context : CallbackContext) (status : NtStatus) : CallbackContext :=
  { context with msg :=
    { context.msg with uptodate := if status = .success then 1 else context.msg.uptodate } }

/-- `transfer_file_block_callback` for the I/O at a position of `pending`. `granted` is the answer
to `co_queue_malloc` in `co_message_mov_to_queue`; `co_monitor_message_from_user_free` frees the
message that is not queued. -/
def transferFileBlockCallback (i : Nat) (status : NtStatus) (information : Nat) (granted : Bool)
    (s : AsyncBlock) : AsyncBlock :=
  match s.pending[i]? with
  | none => s
  | some context =>
    let n := context.msg.request
    let s := { s with
      pending := s.pending.eraseIdx i
      transferred := Function.update s.transferred n information
      ledger := s.ledger.release (.mapping n) }
    if granted then { s with queue := s.queue ++ [completed context status] }
    else s.release (.context n)

/-- A turn of the loop of `callback_return_messages`. -/
def returnMessage (s : AsyncBlock) : AsyncBlock :=
  match s.queue with
  | [] => s
  | context :: queue =>
    { s with
      queue := queue
      delivered := s.delivered ++ [context.msg]
      ledger := s.ledger.release (.context context.msg.request) }

end AsyncBlock

inductive BlockEvent where
  | request (call : BlockCall)
  /-- The host completes an I/O. -/
  | complete (i : Nat) (status : NtStatus) (information : Nat) (granted : Bool)
  /-- `callback_return_messages` has taken its turn at one more of the messages. -/
  | returnMessage

def blockStep (e : BlockEvent) (s : AsyncBlock) : AsyncBlock :=
  match e with
  | .request call => s.coMonitorBlockRequest call
  | .complete i status information granted =>
    s.transferFileBlockCallback i status information granted
  | .returnMessage => s.returnMessage

/-- No request has been made. -/
def AsyncBlock.boot (blockDevs : Nat → Option FileBlockState) : AsyncBlock where
  blockDevs := blockDevs
  requests := []
  pending := []
  queue := []
  delivered := []
  ledger := Ledger.empty
  ios := []
  transferred := fun _ => 0

end CoLinux
