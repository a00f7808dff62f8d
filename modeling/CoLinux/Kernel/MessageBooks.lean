import CoLinux.Kernel.MessageBatch
import CoLinux.Lib.Ledger
import CoLinux.Lib.Run

/-!
# Who owns a message

A queued message has two blocks: the message of `co_message_dup` or of the caller of
`co_message_mov_to_queue`, and the item that points to it. A monitor owns `linux_message_queue` and a
descriptor owns `out_queue`. The queues are changed by the sends, the reads, `callback_return_messages`
and the three places that flush one; each of them is one step, under the lock of its queue.
-/

namespace CoLinux

open Lib

/-- Who has the queue. -/
inductive QueueOwner where
  | monitor (n : Nat)
  | descriptor (n : Nat)
  deriving DecidableEq

/-- A `co_message_queue_item_t` in the block `item`, and the message that it points to. -/
structure QueueEntry where
  item : Nat
  block : Nat
  message : CoMessage

/-- The memory that messages and items are taken from. -/
structure MessageHeap where
  ledger : Ledger Nat
  nextBlock : Nat

/-- The queue of an owner, oldest first, and the memory. -/
structure QueueState where
  heap : MessageHeap
  queue : List QueueEntry

namespace QueueState

/-- `co_os_malloc`. -/
def malloc (s : QueueState) (next : Nat → QueueState → QueueState) : QueueState :=
  next s.heap.nextBlock { s with heap :=
    ⟨s.heap.ledger.acquire s.heap.nextBlock, s.heap.nextBlock + 1⟩ }

def setLedger (l : Ledger Nat) (s : QueueState) : QueueState :=
  { s with heap := { s.heap with ledger := l } }

/-- `co_os_free`. -/
def free (block : Nat) (s : QueueState) : QueueState := s.setLedger (s.heap.ledger.release block)

/-- A read of a block. -/
def touch (block : Nat) (s : QueueState) : QueueState :=
  if block ∈ s.heap.ledger.live then s else s.setLedger (s.heap.ledger.fault block)

/-- `co_message_mov_to_queue`, and what its caller does if there is no memory for the item. -/
def movToQueue (itemGranted : Bool) (block : Nat) (message : CoMessage) (s : QueueState) :
    QueueState :=
  if itemGranted then
    s.malloc fun item s => { s with queue := s.queue ++ [⟨item, block, message⟩] }
  else s.free block

/-- `co_message_dup_to_queue`. -/
def dupToQueue (granted itemGranted : Bool) (memory : ByteMem) (message : CoMessage)
    (s : QueueState) : QueueState :=
  if granted then
    s.malloc fun block s => s.movToQueue itemGranted block (coMessageDup memory message)
  else s

/-- The end of `co_manager_send` on a descriptor that no read has taken the message of. -/
def send (active granted itemGranted : Bool) (memory : ByteMem) (message : CoMessage)
    (s : QueueState) : QueueState :=
  if active then s.dupToQueue granted itemGranted memory message else s

/-- `co_monitor_message_from_user`. -/
def messageFromUser (granted itemGranted : Bool) (memory : ByteMem) (message : CoMessage)
    (s : QueueState) : QueueState :=
  if message.toModule = coModuleLinux then s.dupToQueue granted itemGranted memory message else s

/-- `co_monitor_message_from_user_free`, on a message that its caller has allocated. -/
def messageFromUserFree (itemGranted : Bool) (message : CoMessage) (s : QueueState) : QueueState :=
  s.malloc fun block s =>
    if message.toModule = coModuleLinux then s.movToQueue itemGranted block message
    else s.free block

/-- The item and then the message are freed; `copied` says whether the message is copied to a
buffer in between. -/
def discard (entry : QueueEntry) (copied : Bool) (s : QueueState) : QueueState :=
  let s := s.free entry.item
  (if copied then s.touch entry.block else s).free entry.block

/-- The loop of `manager_read` with `space` bytes left in the buffer. -/
def readLoop : List QueueEntry → Nat → QueueState → QueueState
  | [], _, s => { s with queue := [] }
  | entry :: queue, space, s =>
    let s := (s.touch entry.item).touch entry.block
    if space < entry.message.totalSize then { s with queue := entry :: queue }
    else readLoop queue (space - entry.message.totalSize) (s.discard entry true)

/-- The ids of a message and of the device in its data are in range. -/
def KnownIds (message : CoMessage) : Prop :=
  message.fromModule < coModulesMax ∧ message.toModule < coModulesMax ∧
    message.device < coDevicesTotal

instance (message : CoMessage) : Decidable (KnownIds message) :=
  inferInstanceAs (Decidable (_ ∧ _ ∧ _))

/-- The loop of `callback_return_messages`. A message with a bad id is freed, and ends it. -/
def callbackLoop : List QueueEntry → Nat → QueueState → QueueState
  | [], _, s => { s with queue := [] }
  | entry :: queue, space, s =>
    let s := (s.touch entry.item).touch entry.block
    if space < entry.message.totalSize then { s with queue := entry :: queue }
    else if KnownIds entry.message then
      callbackLoop queue (space - entry.message.totalSize) (s.discard entry true)
    else { s.discard entry false with queue := queue }

/-- `manager_read` with a buffer of `length` bytes. -/
def read (length : Nat) (s : QueueState) : QueueState := readLoop s.queue length s

/-- `callback_return_messages`, which does nothing while messages wait in the io buffer. -/
def callbackReturnMessages (waiting : Bool) (s : QueueState) : QueueState :=
  if waiting then s else callbackLoop s.queue ioBufferCapacity s

/-- `co_queue_flush` frees the items, and not what they point to. -/
def flush (s : QueueState) : QueueState :=
  { s with
    heap := { s.heap with ledger := s.heap.ledger.releaseAll (s.queue.map QueueEntry.item) }
    queue := [] }

end QueueState

/-- All queues, and the memory. -/
structure MessageBooks where
  heap : MessageHeap
  queues : List (QueueOwner × List QueueEntry)

/-- What is done with a queue. -/
inductive MessageQueueOp where
  | send (active granted itemGranted : Bool) (memory : ByteMem) (message : CoMessage)
  | messageFromUser (granted itemGranted : Bool) (memory : ByteMem) (message : CoMessage)
  | messageFromUserFree (itemGranted : Bool) (message : CoMessage)
  | read (length : Nat)
  | callbackReturnMessages (waiting : Bool)
  /-- In `co_monitor_user_reset`. -/
  | reset

inductive MessageEvent where
  /-- `co_queue_init` in `co_monitor_create` or `co_manager_open`. -/
  | create (owner : QueueOwner)
  | queueOp (owner : QueueOwner) (op : MessageQueueOp)
  /-- `co_monitor_destroy` or `co_manager_close_`: a flush, and the owner is freed. -/
  | destroy (owner : QueueOwner)

def MessageQueueOp.apply : MessageQueueOp → QueueState → QueueState
  | .send active granted itemGranted memory message, s =>
    s.send active granted itemGranted memory message
  | .messageFromUser granted itemGranted memory message, s =>
    s.messageFromUser granted itemGranted memory message
  | .messageFromUserFree itemGranted message, s => s.messageFromUserFree itemGranted message
  | .read length, s => s.read length
  | .callbackReturnMessages waiting, s => s.callbackReturnMessages waiting
  | .reset, s => s.flush

namespace MessageBooks

/-- Changes the queue of `owner`, if it has one. -/
def onQueue (owner : QueueOwner) (op : QueueState → QueueState) :
    List (QueueOwner × List QueueEntry) → MessageHeap → MessageBooks
  | [], heap => ⟨heap, []⟩
  | entry :: queues, heap =>
    if entry.1 = owner then
      let s := op ⟨heap, entry.2⟩
      ⟨s.heap, (owner, s.queue) :: queues⟩
    else
      let rest := onQueue owner op queues heap
      { rest with queues := entry :: rest.queues }

def HasQueue (s : MessageBooks) (owner : QueueOwner) : Prop := owner ∈ s.queues.map Prod.fst

instance (s : MessageBooks) (owner : QueueOwner) : Decidable (s.HasQueue owner) :=
  inferInstanceAs (Decidable (_ ∈ _))

def step : MessageEvent → MessageBooks → MessageBooks
  | .create owner, s =>
    if s.HasQueue owner then s else { s with queues := (owner, []) :: s.queues }
  | .queueOp owner op, s => onQueue owner op.apply s.queues s.heap
  | .destroy owner, s =>
    let s := onQueue owner QueueState.flush s.queues s.heap
    { s with queues := s.queues.filter fun entry => entry.1 ≠ owner }

/-- No owner yet. -/
def start : MessageBooks := ⟨⟨.empty, 0⟩, []⟩

end MessageBooks

/-! ## What is held -/

/-- The blocks of a queue. -/
def queueBlocks (queue : List QueueEntry) : List Nat := queue.flatMap fun e => [e.item, e.block]

@[simp] theorem queueBlocks_nil : queueBlocks [] = [] := rfl

@[simp] theorem queueBlocks_cons (e : QueueEntry) (queue : List QueueEntry) :
    queueBlocks (e :: queue) = e.item :: e.block :: queueBlocks queue := rfl

theorem queueBlocks_append (queue rest : List QueueEntry) :
    queueBlocks (queue ++ rest) = queueBlocks queue ++ queueBlocks rest := List.flatMap_append

namespace QueueState

variable {s : QueueState} {rs : List Nat}

/-- Held are the blocks of the queue, and `rs`. -/
def Holding (s : QueueState) (rs : List Nat) : Prop :=
  s.heap.ledger.Holds (queueBlocks s.queue ++ rs)

/-- An operation that takes and gives back what it adds to the queue and takes off it. -/
def Balanced (op : QueueState → QueueState) : Prop := ∀ s rs, s.Holding rs → (op s).Holding rs

theorem movToQueue_holding (itemGranted : Bool) {block : Nat} (message : CoMessage)
    (h : s.heap.ledger.Holds (block :: (queueBlocks s.queue ++ rs))) :
    (s.movToQueue itemGranted block message).Holding rs := by
  unfold movToQueue
  split
  · refine (h.acquire s.heap.nextBlock).perm ?_
    show List.Perm _ (queueBlocks (s.queue ++ [⟨s.heap.nextBlock, block, message⟩]) ++ rs)
    rw [queueBlocks_append, List.append_assoc]
    exact List.perm_append_comm_assoc [s.heap.nextBlock, block] (queueBlocks s.queue) rs
  · exact h.release_head

theorem dupToQueue_holding (granted itemGranted : Bool) (memory : ByteMem) (message : CoMessage)
    (h : s.Holding rs) : (s.dupToQueue granted itemGranted memory message).Holding rs := by
  unfold dupToQueue
  split
  · exact movToQueue_holding itemGranted _ (h.acquire s.heap.nextBlock)
  · exact h

theorem messageFromUserFree_holding (itemGranted : Bool) (message : CoMessage)
    (h : s.Holding rs) : (s.messageFromUserFree itemGranted message).Holding rs := by
  have held := h.acquire s.heap.nextBlock
  unfold messageFromUserFree malloc
  dsimp only
  split
  · exact movToQueue_holding itemGranted message held
  · exact held.release_head

/-! ## Taking messages off a queue -/

theorem touch_of_held {block : Nat} (held : block ∈ s.heap.ledger.live) : s.touch block = s :=
  if_pos held

/-- What is left after an entry has been freed. -/
theorem discard_holds {e : QueueEntry} (copied : Bool)
    (h : s.heap.ledger.Holds (e.item :: e.block :: rs)) :
    (s.discard e copied).heap.ledger.Holds rs := by
  have item : (s.free e.item).heap.ledger.Holds (e.block :: rs) := h.release_head
  have held : e.block ∈ (s.free e.item).heap.ledger.live :=
    item.live.mem_iff.mpr List.mem_cons_self
  unfold discard
  dsimp only
  rw [touch_of_held held, ite_self]
  exact item.release_head

/-- The blocks of the entry in front are there. -/
theorem touch_front {e : QueueEntry}
    (h : s.heap.ledger.Holds (e.item :: e.block :: rs)) :
    (s.touch e.item).touch e.block = s := by
  rw [touch_of_held (h.live.mem_iff.mpr List.mem_cons_self)]
  exact touch_of_held (h.live.mem_iff.mpr (List.mem_cons_of_mem _ List.mem_cons_self))

theorem readLoop_holding {queue : List QueueEntry} {space : Nat}
    (h : s.heap.ledger.Holds (queueBlocks queue ++ rs)) : (readLoop queue space s).Holding rs := by
  induction queue generalizing space s with
  | nil => exact h
  | cons e queue ih =>
    rw [readLoop, touch_front h]
    split
    · exact h
    · exact ih (discard_holds true h)

theorem callbackLoop_holding {queue : List QueueEntry} {space : Nat}
    (h : s.heap.ledger.Holds (queueBlocks queue ++ rs)) :
    (callbackLoop queue space s).Holding rs := by
  induction queue generalizing space s with
  | nil => exact h
  | cons e queue ih =>
    rw [callbackLoop, touch_front h]
    split
    · exact h
    split
    · exact ih (discard_holds true h)
    · exact discard_holds false h

/-- A flush keeps the messages. -/
theorem flush_holds (h : s.Holding rs) :
    s.flush.heap.ledger.Holds (s.queue.map QueueEntry.block ++ rs) := by
  have split : (queueBlocks s.queue).Perm
      (s.queue.map QueueEntry.block ++ s.queue.map QueueEntry.item) := by
    generalize s.queue = queue
    induction queue with
    | nil => exact .nil
    | cons e queue ih =>
      rw [queueBlocks_cons, List.map_cons, List.map_cons]
      exact (List.Perm.swap e.block e.item _).trans
        ((ih.cons e.item).trans List.perm_middle.symm |>.cons e.block)
  have held : s.heap.ledger.Holds
      (s.queue.map QueueEntry.block ++ rs ++ s.queue.map QueueEntry.item) := by
    refine h.perm ((split.append_right rs).trans ?_)
    rw [List.append_assoc, List.append_assoc]
    exact List.perm_append_comm.append_left _
  exact held.releaseAll

end QueueState

/-- Everything but a flush is balanced. -/
theorem MessageQueueOp.balanced {op : MessageQueueOp} (noFlush : op ≠ .reset) :
    QueueState.Balanced op.apply := by
  intro s rs h
  cases op with
  | send active granted itemGranted memory message =>
    show (s.send active granted itemGranted memory message).Holding rs
    unfold QueueState.send
    split
    · exact QueueState.dupToQueue_holding granted itemGranted memory message h
    · exact h
  | messageFromUser granted itemGranted memory message =>
    show (s.messageFromUser granted itemGranted memory message).Holding rs
    unfold QueueState.messageFromUser
    split
    · exact QueueState.dupToQueue_holding granted itemGranted memory message h
    · exact h
  | messageFromUserFree itemGranted message =>
    exact QueueState.messageFromUserFree_holding itemGranted message h
  | read length => exact QueueState.readLoop_holding h
  | callbackReturnMessages waiting =>
    show (s.callbackReturnMessages waiting).Holding rs
    unfold QueueState.callbackReturnMessages
    split
    · exact h
    · exact QueueState.callbackLoop_holding h
  | reset => exact absurd rfl noFlush

namespace MessageBooks

variable {s : MessageBooks} {owner : QueueOwner} {rs : List Nat} {heap : MessageHeap}
  {queues : List (QueueOwner × List QueueEntry)}

/-- The blocks of all queues. -/
def allBlocks (queues : List (QueueOwner × List QueueEntry)) : List Nat :=
  queues.flatMap fun entry => queueBlocks entry.2

@[simp] theorem allBlocks_cons (entry : QueueOwner × List QueueEntry)
    (queues : List (QueueOwner × List QueueEntry)) :
    allBlocks (entry :: queues) = queueBlocks entry.2 ++ allBlocks queues := rfl

/-- What is held are the messages and the items in the queues of the owners that are there, each
once, and nothing was used or freed that was not held. -/
def Owned (s : MessageBooks) : Prop := s.heap.ledger.Holds (allBlocks s.queues)

/-- `owner` has no queue, or an empty one. -/
def EmptyOf (owner : QueueOwner) (queues : List (QueueOwner × List QueueEntry)) : Prop :=
  ∀ entry ∈ queues, entry.1 = owner → entry.2 = []

/-- A flush finds the queue empty. -/
def FlushesEmpty (s : MessageBooks) : MessageEvent → Prop
  | .queueOp owner .reset | .destroy owner => EmptyOf owner s.queues
  | _ => True

/-- An operation on one queue keeps the names of all. -/
theorem onQueue_names (owner : QueueOwner) (op : QueueState → QueueState)
    (queues : List (QueueOwner × List QueueEntry)) (heap : MessageHeap) :
    (onQueue owner op queues heap).queues.map Prod.fst = queues.map Prod.fst := by
  induction queues with
  | nil => rfl
  | cons entry queues ih =>
    rw [onQueue]
    split
    · next same => exact congrArg (· :: queues.map Prod.fst) same.symm
    · exact congrArg (entry.1 :: ·) ih

theorem onQueue_holds (owner : QueueOwner) {op : QueueState → QueueState}
    (balanced : QueueState.Balanced op)
    (h : heap.ledger.Holds (allBlocks queues ++ rs)) :
    (onQueue owner op queues heap).heap.ledger.Holds
      (allBlocks (onQueue owner op queues heap).queues ++ rs) := by
  induction queues generalizing rs with
  | nil => exact h
  | cons entry queues ih =>
    rw [allBlocks_cons, List.append_assoc] at h
    rw [onQueue]
    split
    · have held := balanced ⟨heap, entry.2⟩ _ h
      rw [QueueState.Holding, ← List.append_assoc] at held
      exact held
    · have moved := h.perm (List.perm_append_comm_assoc _ _ _)
      have held := (ih moved).perm (List.perm_append_comm_assoc _ _ _)
      rw [← List.append_assoc] at held
      exact held

/-- After a flush the queue is empty, and its messages are still held. -/
theorem onQueue_flush (owner : QueueOwner) (distinct : (queues.map Prod.fst).Nodup)
    (h : heap.ledger.Holds (allBlocks queues ++ rs)) :
    EmptyOf owner (onQueue owner QueueState.flush queues heap).queues ∧
      ∃ lost, (lost = [] ↔ EmptyOf owner queues) ∧
        (onQueue owner QueueState.flush queues heap).heap.ledger.Holds
          (lost ++ (allBlocks (onQueue owner QueueState.flush queues heap).queues ++ rs)) := by
  induction queues generalizing rs with
  | nil => exact ⟨nofun, [], iff_of_true rfl nofun, h⟩
  | cons entry queues ih =>
    rw [List.map_cons, List.nodup_cons] at distinct
    rw [allBlocks_cons, List.append_assoc] at h
    rw [onQueue]
    split
    · rename_i same
      have others : ∀ e ∈ queues, e.1 ≠ owner := by
        rintro e mem rfl
        exact distinct.1 (same ▸ List.mem_map_of_mem mem)
      refine ⟨?_, entry.2.map QueueEntry.block, ?_, ?_⟩
      · rintro e (_ | ⟨_, mem⟩) found
        · rfl
        · exact absurd found (others e mem)
      · rw [List.map_eq_nil_iff]
        constructor
        · rintro empty e (_ | ⟨_, mem⟩) found
          · exact empty
          · exact absurd found (others e mem)
        · exact fun empty => empty entry List.mem_cons_self same
      · exact QueueState.flush_holds (s := ⟨heap, entry.2⟩) h
    · rename_i other
      have moved := h.perm (List.perm_append_comm_assoc _ _ _)
      obtain ⟨empty, lost, empty_iff, held⟩ := ih distinct.2 moved
      refine ⟨?_, lost, empty_iff.trans ?_, ?_⟩
      · rintro e (_ | ⟨_, mem⟩) found
        · exact absurd found other
        · exact empty e mem found
      · exact ⟨fun all e mem found => by
          rcases List.mem_cons.mp mem with rfl | mem
          · exact absurd found other
          · exact all e mem found, fun all e mem found => all e (List.mem_cons_of_mem _ mem) found⟩
      · refine held.perm (List.Perm.append_left lost ?_)
        rw [allBlocks_cons, List.append_assoc]
        exact List.perm_append_comm_assoc _ _ _

/-- An owner with an empty queue has no blocks. -/
theorem allBlocks_filter (empty : EmptyOf owner queues) :
    allBlocks (queues.filter fun entry => entry.1 ≠ owner) = allBlocks queues := by
  induction queues with
  | nil => rfl
  | cons entry queues ih =>
    have rest := ih fun e mem => empty e (List.mem_cons_of_mem _ mem)
    by_cases same : entry.1 = owner
    · rw [List.filter_cons_of_neg (by simpa using same), rest, allBlocks_cons,
        empty entry List.mem_cons_self same]
      rfl
    · rw [List.filter_cons_of_pos (by simpa using same), allBlocks_cons, allBlocks_cons, rest]

/-! ## The steps -/

/-- The invariant. -/
structure Inv (s : MessageBooks) : Prop where
  owned : s.Owned
  distinct : (s.queues.map Prod.fst).Nodup

theorem Inv.queueOp (inv : Inv s) (owner : QueueOwner) {op : MessageQueueOp} (noFlush : op ≠ .reset) :
    Inv (step (.queueOp owner op) s) := by
  have held : s.heap.ledger.Holds (allBlocks s.queues ++ []) := by
    rw [List.append_nil]
    exact inv.owned
  have held := onQueue_holds owner (MessageQueueOp.balanced noFlush) held
  rw [List.append_nil] at held
  refine ⟨held, ?_⟩
  show ((onQueue owner op.apply s.queues s.heap).queues.map Prod.fst).Nodup
  rw [onQueue_names]
  exact inv.distinct

theorem Inv.create (inv : Inv s) (owner : QueueOwner) : Inv (step (.create owner) s) := by
  rw [step]
  split
  · exact inv
  · rename_i absent
    exact ⟨inv.owned, List.nodup_cons.mpr ⟨absent, inv.distinct⟩⟩

/-- A flush, and what it loses. -/
theorem Inv.flush (inv : Inv s) (owner : QueueOwner) :
    let r := onQueue owner QueueState.flush s.queues s.heap
    EmptyOf owner r.queues ∧ (r.queues.map Prod.fst).Nodup ∧
      (r.Owned ↔ EmptyOf owner s.queues) := by
  have held : s.heap.ledger.Holds (allBlocks s.queues ++ []) := by
    rw [List.append_nil]
    exact inv.owned
  obtain ⟨empty, lost, empty_iff, left⟩ := onQueue_flush owner inv.distinct held
  rw [List.append_nil] at left
  refine ⟨empty, by rw [onQueue_names]; exact inv.distinct, ?_⟩
  rw [← empty_iff]
  constructor
  · intro owned
    have same := (left.live.symm.trans owned.live).length_eq
    rw [List.length_append] at same
    exact List.length_eq_zero_iff.mp (by omega)
  · rintro rfl
    exact left

theorem step_inv (e : MessageEvent) (inv : Inv s) (ok : s.FlushesEmpty e) : Inv (step e s) := by
  cases e with
  | create owner => exact inv.create owner
  | queueOp owner op =>
    by_cases reset : op = .reset
    · subst reset
      obtain ⟨-, distinct, owned⟩ := inv.flush owner
      exact ⟨owned.mpr ok, distinct⟩
    · exact inv.queueOp owner reset
  | destroy owner =>
    obtain ⟨empty, distinct, owned⟩ := inv.flush owner
    have kept := owned.mpr ok
    rw [Owned, ← allBlocks_filter empty] at kept
    exact ⟨kept, distinct.sublist (List.filter_sublist.map Prod.fst)⟩

theorem flush_lost {e : MessageEvent} (inv : Inv s) (full : ¬ s.FlushesEmpty e) :
    ¬ (step e s).Owned := by
  cases e with
  | create owner => exact absurd trivial full
  | queueOp owner op =>
    cases op with
    | reset => exact fun owned => full ((inv.flush owner).2.2.mp owned)
    | _ => exact absurd trivial full
  | destroy owner =>
    obtain ⟨empty, -, owned⟩ := inv.flush owner
    intro kept
    have kept : Ledger.Holds _ (allBlocks (List.filter _ _)) := kept
    rw [allBlocks_filter empty] at kept
    exact full (owned.mp kept)

/-- In every state of a run the messages that are held are those in the queues of the owners that
are there, if and only if every flush finds its queue empty. -/
theorem owned_iff (es : List MessageEvent) :
    (∀ p, p <+: es → (run step p start).Owned) ↔ RunOk step FlushesEmpty es start :=
  forall_prefix_iff_runOk_of_breaks (fun _ inv => inv.owned) (fun _ e inv ok => step_inv e inv ok)
    (fun _ _ inv full => flush_lost inv full) ⟨Ledger.holds_empty, List.nodup_nil⟩

/-- A message for Linux waits in the queue of a monitor that is reset. -/
def resetQueued : List MessageEvent :=
  [.create (.monitor 0),
    .queueOp (.monitor 0) (.messageFromUser true true (fun _ => 0) fun _ => 0),
    .queueOp (.monitor 0) .reset]

/-- The message is never freed. -/
theorem resetQueued_lost : ¬ (run step resetQueued start).Owned := by
  intro owned
  exact absurd owned.live.length_eq (by decide +kernel)

end MessageBooks

end CoLinux
