import CoLinux.Kernel.MessageBatch
import CoLinux.Lib.Run

/-!
# The channel from the driver to a reader

`co_manager_send` of `kernel/manager.c` with `co_os_manager_userspace_try_send_direct`, and
`manager_read` with `manager_irp_cancel` of `os/winnt/kernel/interface.c`, on one active descriptor,
and the loop in which the daemon takes a block apart. Sends and reads hold the descriptor's lock; a
cancellation holds the cancel spin lock only, so that it can come after a send has looked at
`opened->os->irp` and before it takes it.
-/

namespace CoLinux

open Lib

/-- A read request with a buffer of `length` bytes. -/
structure Irp where
  id : Nat
  length : Nat

inductive IrpStatus where
  | success
  | bufferOverflow
  | invalidParameter
  | cancelled
  deriving DecidableEq

/-- An active `co_manager_open_desc_t`, and its reader. -/
structure ReaderChannel where
  /-- `out_queue`, oldest first. -/
  outQueue : List CoMessage
  /-- `os->irp`. -/
  irp : Option Irp
  /-- A send that holds the lock and has read this `os->irp`. -/
  sending : Option (CoMessage × Irp)
  /-- The requests that are not completed. -/
  outstanding : List Nat
  nextIrp : Nat
  /-- What requests were completed with, oldest first. -/
  completed : List (IrpStatus × List UInt8)
  /-- Completions of a request that was completed before. -/
  faults : Nat
  /-- The messages of the sends so far that returned OK, oldest first. -/
  sent : List (List UInt8)

inductive ReaderEvent where
  /-- `co_manager_send` up to its look at `os->irp`, or to its end if there is none. `memory` is
  what `co_message_dup` gets, or nothing where that or the queue item is refused. -/
  | send (message : CoMessage) (memory : Option ByteMem)
  /-- The rest of a send that has read an `os->irp`. -/
  | take (memory : Option ByteMem)
  | read (length : Nat)
  /-- The cancel routine of the pending read. -/
  | cancel

namespace ReaderChannel

/-- `IoCompleteRequest`. -/
def complete (irp : Irp) (status : IrpStatus) (block : List UInt8) (s : ReaderChannel) :
    ReaderChannel :=
  if irp.id ∈ s.outstanding then
    { s with
      outstanding := s.outstanding.erase irp.id
      completed := s.completed ++ [(status, block)] }
  else { s with faults := s.faults + 1 }

/-- `co_message_dup_to_queue`. -/
def dupToQueue (message : CoMessage) (memory : Option ByteMem) (s : ReaderChannel) :
    Step ReaderChannel :=
  match memory with
  | none => (.outOfMemory, s)
  | some memory => (.ok, { s with outQueue := s.outQueue ++ [coMessageDup memory message] })

/-- A send returns. -/
def sendReturns (message : CoMessage) (r : Step ReaderChannel) : ReaderChannel :=
  if r.1 = .ok then { r.2 with sent := r.2.sent ++ [message.bytes] } else r.2

/-- While another send has the lock, it waits. The wait for a long queue to get shorter comes after
the message is queued and changes nothing. -/
def send (message : CoMessage) (memory : Option ByteMem) (s : ReaderChannel) : ReaderChannel :=
  match s.sending, s.irp with
  | some _, _ => s
  | none, some irp => { s with sending := some (message, irp) }
  | none, none => sendReturns message (s.dupToQueue message memory)

/-- The request that was read before is completed, whatever has become of it. -/
def take (memory : Option ByteMem) (s : ReaderChannel) : ReaderChannel :=
  match s.sending with
  | none => s
  | some (message, irp) =>
    let s := { s with irp := none, sending := none }
    if message.totalSize ≤ irp.length then
      sendReturns message (.ok, s.complete irp .success (message.slice 0 message.totalSize))
    else sendReturns message ((s.complete irp .cancelled []).dupToQueue message memory)

/-- The loop of `manager_read`: what is copied to the buffer from `position` on, and what is left
of the queue. -/
def packRead (length : Nat) : List CoMessage → Nat → List UInt8 × List CoMessage
  | [], _ => ([], [])
  | message :: queue, position =>
    if length < position + message.totalSize then ([], message :: queue)
    else
      let rest := packRead length queue (position + message.totalSize)
      (message.slice 0 message.totalSize ++ rest.1, rest.2)

/-- `manager_read`. -/
def read (length : Nat) (s : ReaderChannel) : ReaderChannel :=
  if s.sending.isSome then s
  else
    let irp : Irp := ⟨s.nextIrp, length⟩
    let s := { s with nextIrp := s.nextIrp + 1, outstanding := irp.id :: s.outstanding }
    if s.outQueue ≠ [] then
      let packed := packRead length s.outQueue 0
      { s with outQueue := packed.2 }.complete irp
        (if packed.1 = [] then .bufferOverflow else .success) packed.1
    else if s.irp.isSome then s.complete irp .invalidParameter []
    else { s with irp := some irp }

/-- `manager_irp_cancel`. -/
def cancel (s : ReaderChannel) : ReaderChannel :=
  match s.irp with
  | none => s
  | some irp => { s with irp := none }.complete irp .cancelled []

def step : ReaderEvent → ReaderChannel → ReaderChannel
  | .send message memory, s => s.send message memory
  | .take memory, s => s.take memory
  | .read length, s => s.read length
  | .cancel, s => s.cancel

/-- `co_manager_open`. -/
def opened : ReaderChannel where
  outQueue := []
  irp := none
  sending := none
  outstanding := []
  nextIrp := 0
  completed := []
  faults := 0
  sent := []

end ReaderChannel

/-! ## The daemon -/

/-- The loop of `message_receive` with a bound on its turns: the messages it looks at. -/
def messageReceiveLoop (buffer : ByteMem) : Nat → Int → Nat → List (List UInt8)
  | 0, _, _ => []
  | turns + 1, sizeLeft, position =>
    if 0 < sizeLeft then
      let message : CoMessage := fun i => buffer (position + i)
      let left := sizeLeft - message.totalSize
      (if 0 ≤ left then [message.bytes] else []) ++
        messageReceiveLoop buffer turns left (position + message.totalSize)
    else []

/-- `message_receive`. -/
def messageReceive (block : List UInt8) : List (List UInt8) :=
  messageReceiveLoop (ByteMem.ofList block) block.length block.length 0

/-- The message at a place where `m` is stored. -/
theorem record_at {buffer : ByteMem} {m : CoMessage} {position : Nat}
    (stored : buffer.slice position (sizeofCoMessage + m.size) = m.bytes) :
    CoMessage.bytes (fun i => buffer (position + i)) = m.bytes ∧
      CoMessage.size (fun i => buffer (position + i)) = m.size := by
  have same : ∀ i < sizeofCoMessage + m.size, buffer (position + i) = m (0 + i) :=
    fun i hi => ByteMem.slice_inj stored hi
  have size : CoMessage.size (fun i => buffer (position + i)) = m.size := by
    apply ByteMem.readWord_congr
    intro x _ hx
    rw [same x (by simp only [sizeofCoMessage]; omega), Nat.zero_add]
  refine ⟨?_, size⟩
  rw [CoMessage.bytes, size]
  apply ByteMem.slice_congr
  intro i hi
  rw [Nat.zero_add, same i hi, Nat.zero_add]

/-- Whole messages come out one by one. -/
theorem messageReceiveLoop_batch {buffer : ByteMem} {ms : List CoMessage}
    (fits : ∀ m ∈ ms, m.Fits) {turns position : Nat} (enough : ms.length ≤ turns)
    (stored : buffer.slice position (batchBytes ms).length = batchBytes ms) :
    messageReceiveLoop buffer turns (batchBytes ms).length position = ms.map CoMessage.bytes := by
  induction ms generalizing turns position with
  | nil =>
    cases turns with
    | zero => rfl
    | succ turns => rfl
  | cons m ms ih =>
    obtain ⟨turns, rfl⟩ : ∃ n, turns = n + 1 := ⟨turns - 1, by simp at enough; omega⟩
    have fit := fits m List.mem_cons_self
    have length : (batchBytes (m :: ms)).length =
        sizeofCoMessage + m.size + (batchBytes ms).length := by simp
    rw [length, ByteMem.slice_add, batchBytes_cons] at stored
    obtain ⟨first, others⟩ := List.append_inj stored (by simp)
    obtain ⟨bytes, size⟩ := record_at first
    have total : CoMessage.totalSize (fun i => buffer (position + i)) =
        sizeofCoMessage + m.size := by
      rw [CoMessage.totalSize_eq (by rw [CoMessage.Fits, size]; exact fit), size]
    have left : ((batchBytes (m :: ms)).length : Int) -
        (CoMessage.totalSize (fun i => buffer (position + i)) : Nat) = (batchBytes ms).length := by
      rw [total, length]
      push_cast
      omega
    have more : (0 : Int) < (batchBytes (m :: ms)).length := by
      rw [length]
      simp only [sizeofCoMessage]
      omega
    rw [messageReceiveLoop, if_pos more]
    dsimp only
    rw [left, if_pos (Int.natCast_nonneg _), bytes, total, List.map_cons, List.singleton_append,
      ih (fun m' mem => fits m' (List.mem_cons_of_mem _ mem)) (Nat.le_of_succ_le_succ enough) others]

theorem length_le_batchBytes (ms : List CoMessage) : ms.length ≤ (batchBytes ms).length := by
  induction ms with
  | nil => exact Nat.le_refl 0
  | cons m ms ih =>
    rw [batchBytes_cons, List.length_cons, List.length_append, CoMessage.length_bytes]
    simp only [sizeofCoMessage]
    omega

theorem messageReceive_batch {ms : List CoMessage} (fits : ∀ m ∈ ms, m.Fits) :
    messageReceive (batchBytes ms) = ms.map CoMessage.bytes :=
  messageReceiveLoop_batch fits (length_le_batchBytes ms) (ByteMem.slice_ofList _)

namespace ReaderChannel

/-- The messages that the reader was given, block by block. -/
def received (s : ReaderChannel) : List (List UInt8) :=
  s.completed.flatMap fun completion => messageReceive completion.2

/-! ## The invariant -/

/-- Every message whose send returned OK has come out of a read or is still queued, in order, and a
read is pending only while nothing is queued. -/
structure Fifo (s : ReaderChannel) : Prop where
  order : s.received ++ s.outQueue.map CoMessage.bytes = s.sent
  pending : s.irp.isSome → s.outQueue = []

/-- A message of at most `limit` bytes. -/
structure Small (limit : Nat) (m : CoMessage) : Prop where
  fits : m.Fits
  size : sizeofCoMessage + m.size ≤ limit

/-- The invariant; `ms` are the messages that the reader was given. -/
structure Inv (limit : Nat) (ms : List CoMessage) (s : ReaderChannel) : Prop where
  received : s.received = ms.map CoMessage.bytes
  queue : ∀ m ∈ s.outQueue, Small limit m
  order : (ms ++ s.outQueue).map CoMessage.bytes = s.sent
  outstanding : s.outstanding = s.irp.toList.map Irp.id
  pending : ∀ irp, s.irp = some irp → s.outQueue = [] ∧ limit ≤ irp.length
  sending : ∀ m irp, s.sending = some (m, irp) →
    Small limit m ∧ limit ≤ irp.length ∧ s.outQueue = [] ∧ (s.irp = some irp ∨ s.irp = none)

variable {limit : Nat} {ms : List CoMessage} {s : ReaderChannel}

theorem Inv.fifo (inv : Inv limit ms s) : Fifo s where
  order := by
    rw [inv.received, ← List.map_append]
    exact inv.order
  pending := by
    intro some
    obtain ⟨irp, same⟩ := Option.isSome_iff_exists.mp some
    exact (inv.pending irp same).1

/-- What a small message is copied as. -/
theorem Small.slice {m : CoMessage} (small : Small limit m) :
    m.slice 0 m.totalSize = m.bytes := by
  rw [CoMessage.totalSize_eq small.fits, CoMessage.bytes]

theorem Small.dup {m : CoMessage} (small : Small limit m) (memory : ByteMem) :
    Small limit (coMessageDup memory m) := by
  have size := coMessageDup_size small.fits memory
  refine ⟨?_, ?_⟩
  · rw [CoMessage.Fits, size]
    exact small.fits
  · rw [size]
    exact small.size

/-- The queue is packed from its front. -/
theorem packRead_spec (length : Nat) {queue : List CoMessage} (small : ∀ m ∈ queue, Small limit m)
    (position : Nat) : ∃ packed, queue = packed ++ (packRead length queue position).2 ∧
      (packRead length queue position).1 = batchBytes packed := by
  induction queue generalizing position with
  | nil => exact ⟨[], rfl, rfl⟩
  | cons m queue ih =>
    rw [packRead]
    split
    · exact ⟨[], rfl, rfl⟩
    · obtain ⟨packed, rest, bytes⟩ := ih (fun m' mem => small m' (List.mem_cons_of_mem _ mem))
        (position + m.totalSize)
      refine ⟨m :: packed, congrArg (m :: ·) rest, ?_⟩
      rw [batchBytes_cons, (small m List.mem_cons_self).slice]
      exact congrArg (m.bytes ++ ·) bytes

/-! ## The steps -/

theorem complete_of_mem {irp : Irp} (outstanding : irp.id ∈ s.outstanding) (status : IrpStatus)
    (block : List UInt8) : s.complete irp status block =
      { s with
        outstanding := s.outstanding.erase irp.id
        completed := s.completed ++ [(status, block)] } := if_pos outstanding

/-- A block of whole messages. -/
theorem received_append {s' : ReaderChannel} {status : IrpStatus} {block : List UInt8}
    (same : s'.completed = s.completed ++ [(status, block)]) {batch : List CoMessage}
    (bytes : block = batchBytes batch) (fits : ∀ m ∈ batch, m.Fits) :
    s'.received = s.received ++ batch.map CoMessage.bytes := by
  rw [received, same, List.flatMap_append, List.flatMap_singleton, bytes,
    messageReceive_batch fits]
  rfl

theorem received_empty {s' : ReaderChannel} {status : IrpStatus}
    (same : s'.completed = s.completed ++ [(status, [])]) : s'.received = s.received := by
  rw [received_append same batchBytes_nil.symm nofun, List.map_nil, List.append_nil]

/-- A queued message. -/
theorem Inv.queued (inv : Inv limit ms s) (noRead : s.irp = none) (idle : s.sending = none)
    {m : CoMessage} (small : Small limit m) (memory : Option ByteMem) :
    Inv limit ms (sendReturns m (s.dupToQueue m memory)) := by
  cases memory with
  | none => exact inv
  | some memory =>
    refine ⟨inv.received, fun m' mem => ?_, ?_, inv.outstanding, fun irp pending => ?_,
      fun m irp sending => ?_⟩
    · rcases List.mem_append.mp mem with mem | mem
      · exact inv.queue m' mem
      · rw [List.mem_singleton.mp mem]
        exact small.dup memory
    · show (ms ++ (s.outQueue ++ [coMessageDup memory m])).map _ = s.sent ++ [m.bytes]
      rw [← List.append_assoc, List.map_append, inv.order, List.map_singleton,
        coMessageDup_bytes small.fits]
    · exact absurd (noRead.symm.trans pending) nofun
    · exact absurd (idle.symm.trans sending) nofun

theorem Inv.send (inv : Inv limit ms s) {m : CoMessage} (small : Small limit m)
    (memory : Option ByteMem) : Inv limit ms (s.send m memory) := by
  unfold ReaderChannel.send
  split
  · exact inv
  · rename_i irp idle pending
    obtain ⟨empty, room⟩ := inv.pending irp pending
    refine { inv with sending := fun m' irp' sending => ?_ }
    obtain ⟨rfl, rfl⟩ := Prod.mk.inj (Option.some.inj sending)
    exact ⟨small, room, empty, .inl pending⟩
  · rename_i idle noRead
    exact inv.queued noRead idle small memory

/-- A send that still finds the read it has looked at gives it the message. -/
theorem Inv.take (inv : Inv limit ms s) (memory : Option ByteMem)
    (still : s.sending.isSome → s.irp.isSome) : ∃ ms', Inv limit ms' (s.take memory) := by
  unfold ReaderChannel.take
  split
  · exact ⟨ms, inv⟩
  rename_i m irp sending
  obtain ⟨small, room, empty, found⟩ := inv.sending m irp sending
  have pending : s.irp = some irp := by
    refine found.resolve_right fun gone => ?_
    rw [sending, gone] at still
    exact absurd (still rfl) nofun
  have outstanding : s.outstanding = [irp.id] := by rw [inv.outstanding, pending]; rfl
  have fits : m.totalSize ≤ irp.length := by
    rw [CoMessage.totalSize_eq small.fits]
    exact Nat.le_trans small.size room
  have mem : irp.id ∈ { s with irp := none, sending := none }.outstanding := by
    show irp.id ∈ s.outstanding
    rw [outstanding]
    exact List.mem_singleton_self _
  dsimp only
  rw [if_pos fits, complete_of_mem mem, small.slice]
  refine ⟨ms ++ [m], ?_, inv.queue, ?_, ?_, nofun, nofun⟩
  · rw [List.map_append, ← inv.received]
    exact received_append rfl (List.append_nil m.bytes).symm fun m' mem =>
      List.mem_singleton.mp mem ▸ small.fits
  · have order := inv.order
    rw [empty, List.append_nil] at order
    show (ms ++ [m] ++ s.outQueue).map _ = s.sent ++ [m.bytes]
    rw [empty, List.append_nil, List.map_append, order]
    rfl
  · show s.outstanding.erase irp.id = _
    rw [outstanding, List.erase_cons_head]
    rfl

theorem Inv.read (inv : Inv limit ms s) {length : Nat} (room : limit ≤ length) :
    ∃ ms', Inv limit ms' (s.read length) := by
  unfold ReaderChannel.read
  split
  · exact ⟨ms, inv⟩
  rename_i idle
  have idle : s.sending = none := by simpa using idle
  dsimp only
  by_cases queued : s.outQueue = []
  swap
  · rw [if_pos queued]
    have noRead : s.irp = none := by
      cases pending : s.irp with
      | none => rfl
      | some irp => exact absurd (inv.pending irp pending).1 queued
    obtain ⟨packed, split, bytes⟩ := packRead_spec length inv.queue 0
    rw [complete_of_mem List.mem_cons_self, bytes]
    refine ⟨ms ++ packed, ?_, ?_, ?_, ?_, ?_, ?_⟩
    · rw [List.map_append, ← inv.received]
      refine received_append rfl rfl fun m mem => (inv.queue m ?_).fits
      rw [split]
      exact List.mem_append_left _ mem
    · intro m mem
      refine inv.queue m ?_
      rw [split]
      exact List.mem_append_right _ mem
    · rw [List.append_assoc, ← split]
      exact inv.order
    · show (s.nextIrp :: s.outstanding).erase s.nextIrp = _
      rw [List.erase_cons_head]
      exact inv.outstanding
    · exact fun irp pending => absurd (noRead.symm.trans pending) nofun
    · exact fun m irp sending => absurd (idle.symm.trans sending) nofun
  rw [if_neg (not_not.mpr queued)]
  by_cases pending : s.irp.isSome
  · rw [if_pos pending, complete_of_mem List.mem_cons_self]
    refine ⟨ms, ?_, inv.queue, inv.order, ?_, inv.pending, inv.sending⟩
    · exact (received_empty rfl).trans inv.received
    · show (s.nextIrp :: s.outstanding).erase s.nextIrp = _
      rw [List.erase_cons_head]
      exact inv.outstanding
  · rw [if_neg pending]
    have noRead : s.irp = none := by simpa using pending
    refine ⟨ms, inv.received, inv.queue, inv.order, ?_, ?_, ?_⟩
    · show s.nextIrp :: s.outstanding = _
      rw [inv.outstanding, noRead]
      rfl
    · rintro irp ⟨⟩
      exact ⟨queued, room⟩
    · exact fun m irp sending => absurd (idle.symm.trans sending) nofun

theorem Inv.cancel (inv : Inv limit ms s) : Inv limit ms s.cancel := by
  unfold ReaderChannel.cancel
  split
  · exact inv
  rename_i irp pending
  have outstanding : s.outstanding = [irp.id] := by rw [inv.outstanding, pending]; rfl
  have mem : irp.id ∈ { s with irp := none }.outstanding := by
    show irp.id ∈ s.outstanding
    rw [outstanding]
    exact List.mem_singleton_self _
  rw [complete_of_mem mem]
  refine ⟨?_, inv.queue, inv.order, ?_, nofun, fun m irp' sending => ?_⟩
  · exact (received_empty rfl).trans inv.received
  · show s.outstanding.erase irp.id = _
    rw [outstanding, List.erase_cons_head]
    rfl
  · obtain ⟨small, room, empty, -⟩ := inv.sending m irp' sending
    exact ⟨small, room, empty, .inr rfl⟩

/-! ## Every order of sends, reads and cancellations -/

/-- A message that is sent fits every buffer that is read into. -/
def Within (limit : Nat) : ReaderEvent → Prop
  | .send message _ => Small limit message
  | .read length => limit ≤ length
  | .take _ | .cancel => True

/-- A send that has looked at a pending read still finds it when it takes it. -/
def StillPending (s : ReaderChannel) : ReaderEvent → Prop
  | .take _ => s.sending.isSome → s.irp.isSome
  | .send _ _ | .read _ | .cancel => True

instance (s : ReaderChannel) (e : ReaderEvent) : Decidable (s.StillPending e) := by
  cases e <;> simp only [StillPending] <;> infer_instance

theorem Inv.step {e : ReaderEvent} (within : Within limit e) (inv : Inv limit ms s)
    (still : s.StillPending e) : ∃ ms', Inv limit ms' (step e s) := by
  cases e with
  | send m memory => exact ⟨ms, inv.send within memory⟩
  | take memory => exact inv.take memory still
  | read length => exact inv.read within
  | cancel => exact ⟨ms, inv.cancel⟩

/-- A read that was cancelled after the look is completed twice, and the message is lost. -/
theorem Inv.lost {e : ReaderEvent} (inv : Inv limit ms s) (gone : ¬ s.StillPending e) :
    ¬ Fifo (ReaderChannel.step e s) := by
  intro fifo
  cases e with
  | send | read | cancel => exact gone trivial
  | take memory =>
    obtain ⟨looked, cancelled⟩ := Classical.not_imp.mp gone
    obtain ⟨⟨m, irp⟩, sending⟩ := Option.isSome_iff_exists.mp looked
    have noRead : s.irp = none := by simpa using cancelled
    obtain ⟨small, room, empty, -⟩ := inv.sending m irp sending
    have fits : m.totalSize ≤ irp.length := by
      rw [CoMessage.totalSize_eq small.fits]
      exact Nat.le_trans small.size room
    have completed : irp.id ∉ s.outstanding := by
      rw [inv.outstanding, noRead]
      exact List.not_mem_nil
    have taken : ReaderChannel.step (.take memory) s =
        { s with
          irp := none
          sending := none
          faults := s.faults + 1
          sent := s.sent ++ [m.bytes] } := by
      show s.take memory = _
      rw [ReaderChannel.take, sending]
      dsimp only
      rw [if_pos fits, complete, if_neg completed]
      rfl
    have order := fifo.order
    rw [taken] at order
    have before : s.received ++ s.outQueue.map CoMessage.bytes = s.sent := inv.fifo.order
    have after : s.sent = s.sent ++ [m.bytes] := before.symm.trans order
    exact absurd (List.self_eq_append_right.mp after) nofun

theorem opened_inv (limit : Nat) : Inv limit [] opened :=
  ⟨rfl, fun _ mem => absurd mem List.not_mem_nil, rfl, rfl, nofun, nofun⟩

/-- In every state of a run the reader was given the messages whose sends returned OK, in order,
except those still queued, if and only if no cancellation comes between a send's look at the pending
read and its taking of it. -/
theorem fifo_iff (limit : Nat) {es : List ReaderEvent} (within : ∀ e ∈ es, Within limit e) :
    (∀ p, p <+: es → Fifo (run step p opened)) ↔ RunOk step StillPending es opened := by
  refine forall_prefix_iff_runOk_of_events (fun s => ∃ ms, Inv limit ms s) ?_ ?_ ?_ within
    ⟨[], opened_inv limit⟩
  · rintro s ⟨ms, inv⟩
    exact inv.fifo
  · rintro s e within ⟨ms, inv⟩ still
    exact inv.step within still
  · rintro s e - ⟨ms, inv⟩ gone
    exact inv.lost gone

/-- A message with four bytes of data. -/
def tinyMessage : CoMessage := coMessage 0 7 0 0 4 fun _ => 0

theorem tinyMessage_small : Small 64 tinyMessage := by
  constructor <;> decide

/-- One message is delivered directly, one is refused for want of memory, and one goes through the
queue. -/
def plainReads : List ReaderEvent :=
  [.read 64, .send tinyMessage none, .take none, .send tinyMessage none,
    .send tinyMessage (some fun _ => 0), .read 64]

theorem fifo_plainReads :
    (run step plainReads opened).sent = [tinyMessage.bytes, tinyMessage.bytes] ∧
      ∀ p, p <+: plainReads → Fifo (run step p opened) := by
  refine ⟨by decide +kernel, (fifo_iff 64 fun e mem => ?_).mpr (by decide +kernel)⟩
  simp only [plainReads, List.mem_cons, List.not_mem_nil, or_false] at mem
  rcases mem with rfl | rfl | rfl | rfl | rfl | rfl
  · exact Nat.le_refl 64
  · exact tinyMessage_small
  · trivial
  · exact tinyMessage_small
  · exact tinyMessage_small
  · exact Nat.le_refl 64

/-- A read is cancelled while a send is about to take it. -/
def cancelledReads : List ReaderEvent :=
  [.read 64, .send tinyMessage none, .cancel, .take none]

theorem cancelledReads_lost : ¬ Fifo (run step cancelledReads opened) := by
  intro fifo
  exact absurd fifo.order (by decide +kernel)

end ReaderChannel

end CoLinux
