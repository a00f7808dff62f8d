import CoLinux.Common.Queue

/-!
# A queue is a sequence of items

Over any sequence of operations a queue answers as the list of its items would, the head first.
-/

namespace CoLinux

open Lib

/-! ## Operations -/

/-- What can be done with a queue; an item is known by its address. -/
inductive QueueOp where
  | addHead (item : Nat)
  | addTail (item : Nat)
  | getTail
  | popTail
  | peekTail
  | getPrev (item : Nat)
  | traverse
  | flush
  deriving DecidableEq, Repr

inductive QueueAnswer where
  | done
  /-- A result and, with success, the pointer that was stored. -/
  | pointer (result : Except CoRc Nat)
  | pointers (ptrs : List Nat)
  | result (rc : CoRc)

/-- An operation on the queue in memory. -/
def coQueueStep : QueueOp → CoQueue → QueueAnswer × CoQueue
  | .addHead item, q => (.done, coQueueAddHead (itemData item) q)
  | .addTail item, q => (.done, coQueueAddTail (itemData item) q)
  | .getTail, q => (.pointer (coQueueGetTail q), q)
  | .popTail, q => (.pointer (coQueuePopTail q).1, (coQueuePopTail q).2)
  | .peekTail, q => (.pointer (coQueuePeekTail q), q)
  | .getPrev item, q => (.pointer (coQueueGetPrev (itemData item) q), q)
  | .traverse, q => (.pointers (coQueueTraverse q), q)
  | .flush, q => (.result (coQueueFlush q).1, (coQueueFlush q).2)

/-! ## The sequence -/

/-- The items of a queue, the head first, and those that have been freed, oldest first. -/
structure Deque where
  items : List Nat
  freed : List Nat
  deriving DecidableEq, Repr

namespace Deque

def empty : Deque := ⟨[], []⟩

/-- The same operation on the sequence. -/
def step : QueueOp → Deque → QueueAnswer × Deque
  | .addHead item, d => (.done, { d with items := item :: d.items })
  | .addTail item, d => (.done, { d with items := d.items ++ [item] })
  | .getTail, d => (.pointer (lastItem d.items), d)
  | .popTail, d => (.pointer (lastItem d.items), { d with items := d.items.dropLast })
  | .peekTail, d => (.pointer (lastItem d.items), d)
  | .getPrev item, d => (.pointer (itemBefore item d.items), d)
  | .traverse, d => (.pointers (d.items.map itemData).reverse, d)
  | .flush, d => (.result .error, ⟨[], d.freed ++ d.items.reverse⟩)

/-- An item that is added is in no queue yet, and `co_queue_get_prev` is asked of an item of the
queue. -/
def Allowed (head : Nat) (d : Deque) : QueueOp → Prop
  | .addHead item | .addTail item => item ∉ head :: d.items
  | .getPrev item => item ∈ d.items
  | _ => True

instance (head : Nat) (d : Deque) : DecidablePred (d.Allowed head) := fun op => by
  cases op <;> unfold Allowed <;> infer_instance

end Deque

/-- The queue at `head` stands for the sequence. -/
structure Represents (head : Nat) (q : CoQueue) (d : Deque) : Prop where
  head : q.head = head
  holds : q.Holds d.items
  freed : q.freed = d.freed

/-- One operation: the same answer, and the queue stands for the new sequence. -/
theorem coQueueStep_simulates {head : Nat} (op : QueueOp) (q : CoQueue) (d : Deque)
    (h : Represents head q d) (allowed : d.Allowed head op) :
    (coQueueStep op q).1 = (Deque.step op d).1 ∧
      Represents head (coQueueStep op q).2 (Deque.step op d).2 := by
  obtain ⟨rfl, holds, freed⟩ := h
  cases op with
  | addHead item => exact ⟨rfl, rfl, coQueueAddHead_holds holds allowed, freed⟩
  | addTail item => exact ⟨rfl, rfl, coQueueAddTail_holds holds allowed, freed⟩
  | getTail => exact ⟨congrArg _ (coQueueGetTail_holds holds), rfl, holds, freed⟩
  | popTail =>
    obtain ⟨items, gone⟩ := d
    dsimp only at holds freed
    obtain rfl | ⟨front, last, rfl⟩ := List.eq_nil_or_concat items
    · have same := coQueuePopTail_nil holds
      rw [coQueueStep, same]
      exact ⟨rfl, rfl, holds, freed⟩
    · rw [List.concat_eq_append] at holds ⊢
      obtain ⟨ok, popped⟩ := coQueuePopTail_concat holds
      refine ⟨?_, popped.head, ?_, popped.freed.trans freed⟩
      · rw [coQueueStep, Deque.step, ok, lastItem_concat]
      · rw [Deque.step, List.dropLast_concat]
        exact popped.holds
  | peekTail => exact ⟨congrArg _ (coQueueGetTail_holds holds), rfl, holds, freed⟩
  | getPrev item => exact ⟨congrArg _ (coQueueGetPrev_holds holds allowed), rfl, holds, freed⟩
  | traverse => exact ⟨congrArg _ (coQueueTraverse_holds holds), rfl, holds, freed⟩
  | flush =>
    obtain ⟨rc, flushed⟩ := coQueueFlush_holds holds
    exact ⟨congrArg _ rc, flushed.head, flushed.holds, flushed.freed.trans (by rw [freed]; rfl)⟩

/-! ## First in, first out -/

/-- The items that `co_queue_add_head` adds, in order. -/
def added (ops : List QueueOp) : List Nat :=
  ops.filterMap fun
    | .addHead item => some item
    | _ => none

/-- The items whose pointers were stored, in order. -/
def QueueAnswer.item : QueueAnswer → Option Nat
  | .pointer (.ok ptr) => some (ptr - sizeofCoQueueItem)
  | _ => none

/-- Only `co_queue_add_head` and `co_queue_pop_tail`. -/
def QueueOp.FirstInFirstOut : QueueOp → Prop
  | .addHead _ | .popTail => True
  | _ => False

theorem fifo_run {ops : List QueueOp} (only : ∀ op ∈ ops, op.FirstInFirstOut) (d : Deque) :
    (answers Deque.step ops d).1.filterMap (·.item) ++
        (answers Deque.step ops d).2.items.reverse = d.items.reverse ++ added ops := by
  induction ops generalizing d with
  | nil => simp [answers, added]
  | cons op ops ih =>
    obtain ⟨first, rest⟩ := List.forall_mem_cons.mp only
    have later := ih rest (Deque.step op d).2
    rw [answers]
    cases op with
    | addHead item =>
      rw [List.filterMap_cons_none rfl, later]
      simp [Deque.step, added]
    | popTail =>
      obtain ⟨items, gone⟩ := d
      obtain rfl | ⟨front, last, rfl⟩ := List.eq_nil_or_concat items
      · rw [List.filterMap_cons_none rfl, later]
        rfl
      · rw [List.concat_eq_append] at later ⊢
        rw [List.filterMap_cons_some (b := last), List.cons_append, later]
        · simp [Deque.step, added]
        · simp [Deque.step, QueueAnswer.item]
    | addTail | getTail | peekTail | getPrev | traverse | flush => exact first.elim

/-! ## The refinement -/

/-- A queue that was initialised answers every run of operations as the sequence of its items
does. It stands for that sequence after them: its count is the length, its links are those of a
ring, forward and back, and messages leave in the order in which they entered. -/
theorem coQueue_refines (links : CoList) (head : Nat) {ops : List QueueOp}
    (allowed : AnswersOk Deque.step (Deque.Allowed head) ops .empty) :
    let memory := answers coQueueStep ops (coQueueInit links head)
    let sequence := answers Deque.step ops .empty
    memory.1 = sequence.1 ∧ Represents head memory.2 sequence.2 ∧
      (∀ cell ∈ head :: sequence.2.items,
        memory.2.links.prev (memory.2.links.next cell) = cell ∧
          memory.2.links.next (memory.2.links.prev cell) = cell) ∧
      ((∀ op ∈ ops, op.FirstInFirstOut) →
        memory.1.filterMap (·.item) ++ sequence.2.items.reverse = added ops) := by
  have start : Represents head (coQueueInit links head) .empty :=
    ⟨rfl, coQueueInit_holds links head, rfl⟩
  obtain ⟨same, final⟩ := answers_simulate coQueueStep_simulates start allowed
  refine ⟨same, final, fun cell mem => ?_, fun only => ?_⟩
  · have path := final.holds.ring.path
    rw [final.head] at path
    refine ⟨path.prev_next mem, path.next_prev ?_⟩
    rw [List.mem_append, List.mem_singleton, or_comm]
    exact List.mem_cons.mp mem
  · rw [same]
    exact fifo_run only .empty

/-- Two items in, a look at both, one out, and a flush. -/
def queueOps : List QueueOp :=
  [.addHead 64, .addHead 96, .traverse, .getPrev 64, .popTail, .addTail 64, .flush]

theorem coQueue_refines_queueOps :
    AnswersOk Deque.step (Deque.Allowed 32) queueOps .empty ∧
      Represents 32 (answers coQueueStep queueOps (coQueueInit ⟨id, id⟩ 32)).2 ⟨[], [64, 96]⟩ :=
  have allowed : AnswersOk Deque.step (Deque.Allowed 32) queueOps .empty := by decide
  ⟨allowed, (coQueue_refines ⟨id, id⟩ 32 allowed).2.1⟩

end CoLinux
