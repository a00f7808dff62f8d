import CoLinux.Winnt.Block

/-!
# The block driver of the guest (`patch/cobd-core.diff`)

`do_cobd_request` takes the head of a request queue of Linux and asks the host for its current
segment. If the host goes on asynchronously it returns, and `cobd_interrupt` ends the segment and
takes up the queue again. The block layer of Linux is a parameter, with what is documented of the
two functions that the driver calls. Requests are numbered in place of their addresses.

`sent`, `done` and `submitted` record what has happened.
-/

namespace CoLinux

open Lib

/-- What the driver reads of a `struct request`, with the segment that is its current one. -/
structure DiskRequest where
  id : Nat
  /-- `blk_fs_request`. -/
  fs : Bool
  /-- `rq_data_dir` is WRITE. -/
  write : Bool
  sector : Nat
  currentNrSectors : Nat
  buffer : Nat
  deriving DecidableEq

/-- A segment of a new request. -/
structure Segment where
  buffer : Nat
  sectors : Nat

/-- A request that comes to a queue. -/
structure NewRequest where
  id : Nat
  fs : Bool
  write : Bool
  sector : Nat
  current : Segment
  rest : List Segment

namespace NewRequest

/-- The turns of a request whose segments are these: each begins at the sector where the one before
ends. -/
def segmentsFrom (id : Nat) (fs write : Bool) : Nat → List Segment → List DiskRequest
  | _, [] => []
  | sector, g :: rest =>
    ⟨id, fs, write, sector, g.sectors, g.buffer⟩ :: segmentsFrom id fs write (sector + g.sectors) rest

def segments (r : NewRequest) : List DiskRequest :=
  segmentsFrom r.id r.fs r.write r.sector (r.current :: r.rest)

end NewRequest

/-- What the driver uses of Linux's block layer. -/
structure BlockLayer where
  Queue : Type
  /-- A queue without requests. -/
  empty : Queue
  /-- A request comes to the queue. -/
  add : NewRequest → Queue → Queue
  /-- `elv_next_request`. -/
  elvNextRequest : Queue → Option DiskRequest
  /-- `end_request` of a request, with its `uptodate`, and what it leaves of the queue. -/
  endRequest : Nat → Nat → Queue → Queue

/-- What is documented of the block layer. -/
structure BlockLayer.Documented (layer : BlockLayer) (segments : layer.Queue → List DiskRequest) :
    Prop where
  empty : segments layer.empty = []
  add : ∀ r Q, segments (layer.add r Q) = segments Q ++ r.segments
  /-- `elv_next_request` gives the first request, and leaves it in the queue. -/
  elvNextRequest : ∀ Q, layer.elvNextRequest Q = (segments Q).head?
  /-- `end_request` ends I/O on the current segment of a request, which goes on with its next one, or
  leaves the queue when that was the only one. -/
  endRequest : ∀ Q r rest uptodate, segments Q = r :: rest →
    segments (layer.endRequest r.id uptodate Q) = rest

/-- `hardsect_size_shift`. -/
def hardsectSizeShift : Nat := 9

/-- A segment that was asked of the host: the place it has among those of its queue. -/
structure SentPiece where
  queue : Nat
  position : Nat
  piece : DiskRequest

/-- A segment that was ended, and the host's request that decided on its outcome. -/
structure DonePiece where
  piece : DiskRequest
  uptodate : Nat
  number : Option Nat

/-- What the host does with one request. -/
structure CobdAnswer where
  world : World
  contextGranted : Bool
  mapGranted : Bool
  status : NtStatus

structure Cobd (layer : BlockLayer) where
  host : AsyncBlock
  queues : Nat → layer.Queue
  /-- The block layer is going to call the request function. -/
  plugged : Nat → Bool
  /-- The queue of each request. -/
  made : List Nat
  /-- How many messages of the host `cobd_interrupt` has taken. -/
  taken : Nat
  submitted : Nat → List DiskRequest
  /-- What was asked of the host; request `n` of the host is at `n`. -/
  sent : List SentPiece
  done : Nat → List DonePiece
  /-- Calls of `end_request` for a request that is not the head of its queue. -/
  faults : Nat

namespace Cobd

variable {layer : BlockLayer}

/-- A call of `end_request`. -/
def endRequest (id uptodate : Nat) (number : Option Nat) (s : Cobd layer) : Cobd layer :=
  match s.made[id]? with
  | none => { s with faults := s.faults + 1 }
  | some q =>
    let queues := Function.update s.queues q (layer.endRequest id uptodate (s.queues q))
    match (layer.elvNextRequest (s.queues q)).filter fun r => r.id = id with
    | none => { s with
        queues := queues
        faults := s.faults + 1 }
    | some r => { s with
        queues := queues
        done := Function.update s.done q (s.done q ++ [⟨r, uptodate, number⟩]) }

section Driver

-- the units of the queues' disks, and what the host does with its requests
variable (unit : Nat → Fin coModuleMaxCobd) (serve : Nat → CobdAnswer)

/-- The request in the passage page. -/
def blockCall (q : Nat) (r : DiskRequest) (answer : CobdAnswer) : BlockCall where
  world := answer.world
  unit := unit q
  write := r.write
  offset := r.sector <<< hardsectSizeShift
  address := r.buffer
  size := r.currentNrSectors <<< hardsectSizeShift
  irqRequest := r.id
  contextGranted := answer.contextGranted
  mapGranted := answer.mapGranted
  status := answer.status

/-- `cobd_transfer`, with `rc` and `async` as the guest reads them back. -/
def cobdTransfer (q : Nat) (r : DiskRequest) (s : Cobd layer) :
    CoBlockRequestRetcode × Bool × Cobd layer :=
  let n := s.host.requests.length
  let host := s.host.coMonitorBlockRequest (blockCall unit q r (serve n))
  let s := { s with
    host := host
    sent := s.sent ++ [⟨q, (s.done q).length, r⟩] }
  match host.requests[n]? with
  | none => (.error, false, s)
  | some answer => (answer.rc, answer.async, s)

/-- `do_cobd_request`. Each turn but the last ends a segment. -/
def doCobdRequest : Nat → Nat → Cobd layer → Cobd layer
  | 0, _, s => s
  | fuel + 1, q, s =>
    match layer.elvNextRequest (s.queues q) with
    | none => s
    | some r =>
      if r.fs then
        let n := s.host.requests.length
        match cobdTransfer unit serve q r s with
        | (.ok, async, s) =>
          if async then s else doCobdRequest fuel q (s.endRequest r.id 1 (some n))
        | (.error, _, s) => doCobdRequest fuel q (s.endRequest r.id 0 (some n))
      else doCobdRequest fuel q (s.endRequest r.id 0 none)

/-- The block layer calls the request function of a queue. -/
def requestFn (q : Nat) (s : Cobd layer) : Cobd layer :=
  doCobdRequest unit serve (s.submitted q).length q
    { s with plugged := Function.update s.plugged q false }

/-- A turn of the loop of `cobd_interrupt`. -/
def cobdInterrupt (s : Cobd layer) : Cobd layer :=
  match s.host.delivered[s.taken]? with
  | none => s
  | some m =>
    let s := { s with taken := s.taken + 1 }
    if coModuleMaxCobd ≤ m.unit then s
    else
      let s := s.endRequest m.irqRequest m.uptodate (some m.request)
      match s.made[m.irqRequest]? with
      | none => s
      | some q => doCobdRequest unit serve (s.submitted q).length q s

end Driver

/-- The block layer adds a request. An empty queue is plugged before. -/
def submit (q : Nat) (fs write : Bool) (sector : Nat) (current : Segment) (rest : List Segment)
    (s : Cobd layer) : Cobd layer :=
  let r : NewRequest := ⟨s.made.length, fs, write, sector, current, rest⟩
  { s with
    queues := Function.update s.queues q (layer.add r (s.queues q))
    plugged := if (layer.elvNextRequest (s.queues q)).isNone then Function.update s.plugged q true
      else s.plugged
    made := s.made ++ [q]
    submitted := Function.update s.submitted q (s.submitted q ++ r.segments) }

end Cobd

inductive CobdEvent where
  | submit (q : Nat) (fs write : Bool) (sector : Nat) (current : Segment) (rest : List Segment)
  | requestFn (q : Nat)
  | interrupt
  /-- The host completes an I/O. -/
  | complete (i : Nat) (status : NtStatus) (information : Nat) (granted : Bool)
  /-- A message of the host reaches the guest. -/
  | returnMessage

namespace Cobd

variable {layer : BlockLayer}

def step (unit : Nat → Fin coModuleMaxCobd) (serve : Nat → CobdAnswer) (e : CobdEvent)
    (s : Cobd layer) : Cobd layer :=
  match e with
  | .submit q fs write sector current rest => s.submit q fs write sector current rest
  | .requestFn q => s.requestFn unit serve q
  | .interrupt => s.cobdInterrupt unit serve
  | .complete i status information granted =>
    { s with host := s.host.transferFileBlockCallback i status information granted }
  | .returnMessage => { s with host := s.host.returnMessage }

def boot (blockDevs : Nat → Option FileBlockState) : Cobd layer where
  host := .boot blockDevs
  queues := fun _ => layer.empty
  plugged := fun _ => false
  made := []
  taken := 0
  submitted := fun _ => []
  sent := []
  done := fun _ => []
  faults := 0

end Cobd

end CoLinux
