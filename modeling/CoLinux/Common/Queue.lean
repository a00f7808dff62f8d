import CoLinux.Common.Types
import CoLinux.Lib.Answers
import CoLinux.Lib.LinkRing
import Mathlib.Data.List.Induction

/-!
# Queues (`common/queue.c`, `common/list.h`)

A queue is a circular list of items through their first field, with a count beside it. Messages
enter at the head and leave at the tail. The `co_list_t` cells are known by their addresses, and
an item by the address of its `node`, which is its own.
-/

namespace CoLinux

open Lib

/-! ## `co_list_t` -/

/-- The links of all `co_list_t` cells in memory. -/
abbrev CoList := Links Nat

def coListInit (list : Nat) (m : CoList) : CoList := (m.setNext list list).setPrev list list

/-- `co_list_add`, its four stores in order. -/
def coListAdd (new prev next : Nat) (m : CoList) : CoList :=
  (((m.setPrev next new).setNext new next).setPrev new prev).setNext prev new

def coListAddHead (new head : Nat) (m : CoList) : CoList := coListAdd new head (m.next head) m

def coListAddTail (new head : Nat) (m : CoList) : CoList := coListAdd new (m.prev head) head m

def coListUnlink (prev next : Nat) (m : CoList) : CoList := (m.setPrev next prev).setNext prev next

def coListDel (entry : Nat) (m : CoList) : CoList :=
  coListUnlink (m.prev entry) (m.next entry) m

/-! ## `co_queue_t` -/

/-- `sizeof(co_list_t)`. -/
abbrev sizeofCoList : Nat := 8

/-- `sizeof(co_queue_item_t)`: the node; `data` is a flexible array after it. -/
abbrev sizeofCoQueueItem : Nat := 8

/-- A queue in memory. -/
structure CoQueue where
  links : CoList
  /-- `&queue->head`. -/
  head : Nat
  itemsCount : Nat
  /-- The items given to `co_os_free`, oldest first. -/
  freed : List Nat

/-- `&item->data`, the pointer by which the callers know an item. -/
def itemData (item : Nat) : Nat := item + sizeofCoQueueItem

def coQueueInit (links : CoList) (head : Nat) : CoQueue where
  links := coListInit head links
  head := head
  itemsCount := 0
  freed := []

/-- `co_queue_free`. -/
def coQueueFree (ptr : Nat) (q : CoQueue) : CoQueue :=
  { q with freed := q.freed ++ [ptr - sizeofCoQueueItem] }

def coQueueAddHead (ptr : Nat) (q : CoQueue) : CoQueue :=
  { q with
    links := coListAddHead (ptr - sizeofCoQueueItem) q.head q.links
    itemsCount := q.itemsCount + 1 }

def coQueueAddTail (ptr : Nat) (q : CoQueue) : CoQueue :=
  { q with
    links := coListAddTail (ptr - sizeofCoQueueItem) q.head q.links
    itemsCount := q.itemsCount + 1 }

def coQueueGetTail (q : CoQueue) : Except CoRc Nat :=
  if q.itemsCount = 0 then .error .error else .ok (itemData (q.links.prev q.head))

def coQueueGetPrev (ptr : Nat) (q : CoQueue) : Except CoRc Nat :=
  let prev := q.links.prev (ptr - sizeofCoList)
  if prev = q.head then .error .error else .ok (itemData prev)

def coQueuePopTail (q : CoQueue) : Except CoRc Nat × CoQueue :=
  if q.itemsCount = 0 then (.error .error, q)
  else
    let item := q.links.prev q.head
    (.ok (itemData item),
      { q with itemsCount := q.itemsCount - 1, links := coListDel item q.links })

/-- The same as `co_queue_get_tail`. -/
def coQueuePeekTail (q : CoQueue) : Except CoRc Nat :=
  if q.itemsCount = 0 then .error .error else .ok (itemData (q.links.prev q.head))

/-- The loop of `co_queue_flush`; the number bounds its turns. -/
def flushLoop : Nat → CoQueue → CoRc × CoQueue
  | 0, q => (.ok, q)
  | fuel + 1, q =>
    match coQueuePopTail q with
    | (.error rc, q) => (rc, q)
    | (.ok ptr, q) => flushLoop fuel (coQueueFree ptr q)

/-- `co_queue_flush`. Each turn takes one item, so one turn more than there are items is enough. It
returns the error that ends its loop. -/
def coQueueFlush (q : CoQueue) : CoRc × CoQueue := flushLoop (q.itemsCount + 1) q

/-- A traversal: `co_queue_get_prev` from `ptr` on until it fails; the number bounds its turns. -/
def traverseFrom : Nat → Nat → CoQueue → List Nat
  | 0, ptr, _ => [ptr]
  | fuel + 1, ptr, q =>
    ptr :: match coQueueGetPrev ptr q with
      | .error _ => []
      | .ok prev => traverseFrom fuel prev q

/-- A traversal from the tail on. -/
def coQueueTraverse (q : CoQueue) : List Nat :=
  match coQueueGetTail q with
  | .error _ => []
  | .ok ptr => traverseFrom q.itemsCount ptr q

/-! ## The sequence of items -/

/-- The queue holds the items of the list, the head first. -/
structure CoQueue.Holds (q : CoQueue) (items : List Nat) : Prop where
  ring : q.links.Ring q.head items
  count : q.itemsCount = items.length

variable {q : CoQueue} {items : List Nat} {item : Nat}

@[simp] theorem itemOf_data (item : Nat) : itemData item - sizeofCoQueueItem = item :=
  Nat.add_sub_cancel item _

@[simp] theorem nodeOf_data (item : Nat) : itemData item - sizeofCoList = item :=
  Nat.add_sub_cancel item _

/-- The four stores join the new cell to its neighbours. -/
theorem coListAdd_eq (new prev next : Nat) (m : CoList) :
    coListAdd new prev next m = (m.join new next).join prev new := rfl

theorem coQueueInit_holds (links : CoList) (head : Nat) : (coQueueInit links head).Holds [] := by
  refine ⟨⟨?_, List.nodup_singleton head⟩, rfl⟩
  simp [coQueueInit, coListInit, Links.Path, Links.Joined]

theorem coQueueAddHead_holds (h : q.Holds items) (fresh : item ∉ q.head :: items) :
    (coQueueAddHead (itemData item) q).Holds (item :: items) := by
  refine ⟨?_, congrArg (· + 1) h.count⟩
  rw [coQueueAddHead, itemOf_data, coListAddHead, coListAdd_eq, h.ring.path.next_eq]
  have ring : q.links.Ring q.head ([] ++ items) := h.ring
  exact ring.insert fresh

theorem coQueueAddTail_holds (h : q.Holds items) (fresh : item ∉ q.head :: items) :
    (coQueueAddTail (itemData item) q).Holds (items ++ [item]) := by
  refine ⟨?_, ?_⟩
  · rw [coQueueAddTail, itemOf_data, coListAddTail, coListAdd_eq, h.ring.path.prev_eq]
    have ring : q.links.Ring q.head (items ++ []) := (List.append_nil items).symm ▸ h.ring
    apply ring.insert
    rwa [List.append_nil]
  · rw [List.length_append]
    exact congrArg (· + 1) h.count

/-! ### The tail -/

/-- The pointer to the last item of a list, or the error that there is none. -/
def lastItem (items : List Nat) : Except CoRc Nat :=
  match items.getLast? with
  | none => .error .error
  | some item => .ok (itemData item)

@[simp] theorem lastItem_nil : lastItem [] = .error .error := rfl

@[simp] theorem lastItem_concat (items : List Nat) (item : Nat) :
    lastItem (items ++ [item]) = .ok (itemData item) := by
  rw [lastItem, List.getLast?_concat]

theorem CoQueue.Holds.tail (h : q.Holds (items ++ [item])) : q.links.prev q.head = item := by
  rw [h.ring.path.prev_eq, List.getLastD_concat]

theorem CoQueue.Holds.count_concat (h : q.Holds (items ++ [item])) :
    q.itemsCount = items.length + 1 := by
  rw [h.count, List.length_append]
  rfl

theorem coQueueGetTail_holds (h : q.Holds items) : coQueueGetTail q = lastItem items := by
  obtain rfl | ⟨front, last, rfl⟩ := List.eq_nil_or_concat items
  · exact if_pos h.count
  · rw [List.concat_eq_append] at h ⊢
    rw [coQueueGetTail, h.count_concat, if_neg (Nat.succ_ne_zero _), h.tail, lastItem_concat]

/-- The item on the head's side. -/
def itemBefore (item : Nat) (items : List Nat) : Except CoRc Nat :=
  lastItem (items.takeWhile (· ≠ item))

theorem itemBefore_split {front back : List Nat} (first : item ∉ front) :
    itemBefore item (front ++ item :: back) = lastItem front := by
  rw [itemBefore, List.takeWhile_append_of_pos, List.takeWhile_cons_of_neg, List.append_nil]
  · simp
  · intro c hc
    rw [decide_eq_true_eq]
    rintro rfl
    exact first hc

theorem CoQueue.Holds.first {front back : List Nat} (h : q.Holds (front ++ item :: back)) :
    item ∉ front := by
  have distinct := (List.nodup_cons.mp h.ring.nodup).2
  rw [List.nodup_middle, List.nodup_cons, List.mem_append, not_or] at distinct
  exact distinct.1.1

theorem coQueueGetPrev_split {front back : List Nat} (h : q.Holds (front ++ item :: back)) :
    coQueueGetPrev (itemData item) q = lastItem front := by
  rw [coQueueGetPrev, nodeOf_data, h.ring.path.split.1.prev_eq]
  obtain rfl | ⟨front, last, rfl⟩ := List.eq_nil_or_concat front
  · exact if_pos rfl
  · rw [List.concat_eq_append] at h ⊢
    rw [List.getLastD_concat, lastItem_concat]
    refine if_neg ?_
    rintro rfl
    apply (List.nodup_cons.mp h.ring.nodup).1
    simp

theorem coQueueGetPrev_holds (h : q.Holds items) (mem : item ∈ items) :
    coQueueGetPrev (itemData item) q = itemBefore item items := by
  obtain ⟨front, back, rfl⟩ := List.append_of_mem mem
  rw [coQueueGetPrev_split h, itemBefore_split h.first]

theorem coQueuePopTail_nil (h : q.Holds []) : coQueuePopTail q = (.error .error, q) :=
  if_pos h.count

/-- The queue without its last item. -/
structure PoppedTo (q : CoQueue) (items : List Nat) (q' : CoQueue) : Prop where
  holds : q'.Holds items
  head : q'.head = q.head
  freed : q'.freed = q.freed

theorem coQueuePopTail_concat (h : q.Holds (items ++ [item])) :
    (coQueuePopTail q).1 = .ok (itemData item) ∧ PoppedTo q items (coQueuePopTail q).2 := by
  have popped : coQueuePopTail q = (.ok (itemData item),
      { q with itemsCount := items.length, links := coListDel item q.links }) := by
    rw [coQueuePopTail, h.count_concat, if_neg (Nat.succ_ne_zero _)]
    dsimp only
    rw [h.tail, Nat.add_sub_cancel]
  rw [popped]
  refine ⟨rfl, ⟨?_, rfl⟩, rfl, rfl⟩
  have erased := h.ring.erase
  rwa [List.append_nil] at erased

/-! ### Flushing and traversing -/

/-- The queue is empty, and the items have been freed from the tail on. -/
structure Flushed (q : CoQueue) (items : List Nat) (q' : CoQueue) : Prop where
  holds : q'.Holds []
  head : q'.head = q.head
  freed : q'.freed = q.freed ++ items.reverse

theorem flushLoop_holds {fuel : Nat} (enough : items.length < fuel) (h : q.Holds items) :
    (flushLoop fuel q).1 = .error ∧ Flushed q items (flushLoop fuel q).2 := by
  induction items using List.reverseRecOn generalizing q fuel with
  | nil =>
    obtain ⟨fuel, rfl⟩ := Nat.exists_eq_add_of_lt enough
    rw [flushLoop, coQueuePopTail_nil h]
    exact ⟨rfl, h, rfl, (List.append_nil _).symm⟩
  | append_singleton items item ih =>
    obtain ⟨fuel, rfl⟩ := Nat.exists_eq_add_of_lt (Nat.zero_lt_of_lt enough)
    rw [List.length_append, List.length_singleton] at enough
    obtain ⟨ok, popped⟩ := coQueuePopTail_concat h
    rw [flushLoop]
    generalize coQueuePopTail q = r at ok popped
    obtain ⟨ptr, q'⟩ := r
    cases ok
    have freed : (coQueueFree (itemData item) q').Holds items :=
      ⟨popped.holds.ring, popped.holds.count⟩
    obtain ⟨rc, flushed⟩ := ih (show items.length < 0 + fuel by omega) freed
    refine ⟨rc, flushed.holds, flushed.head.trans popped.head, flushed.freed.trans ?_⟩
    rw [coQueueFree, itemOf_data, popped.freed]
    simp

theorem coQueueFlush_holds (h : q.Holds items) :
    (coQueueFlush q).1 = .error ∧ Flushed q items (coQueueFlush q).2 :=
  flushLoop_holds (h.count ▸ Nat.lt_succ_self _) h

theorem traverseFrom_holds {fuel : Nat} {back : List Nat} (enough : items.length ≤ fuel)
    (h : q.Holds (items ++ item :: back)) :
    traverseFrom fuel (itemData item) q = ((items ++ [item]).map itemData).reverse := by
  induction items using List.reverseRecOn generalizing fuel item back with
  | nil =>
    cases fuel with
    | zero => rfl
    | succ fuel =>
      rw [traverseFrom, coQueueGetPrev_split h]
      rfl
  | append_singleton items last ih =>
    rw [List.length_append, List.length_singleton] at enough
    obtain ⟨fuel, rfl⟩ := Nat.exists_eq_add_of_le' (Nat.le_of_add_left_le enough)
    have rest : traverseFrom fuel (itemData last) q = ((items ++ [last]).map itemData).reverse := by
      rw [List.append_assoc] at h
      exact ih (by omega) h
    rw [traverseFrom, coQueueGetPrev_split h, lastItem_concat]
    dsimp only
    rw [rest]
    simp

theorem coQueueTraverse_holds (h : q.Holds items) :
    coQueueTraverse q = (items.map itemData).reverse := by
  rw [coQueueTraverse, coQueueGetTail_holds h]
  obtain rfl | ⟨front, last, rfl⟩ := List.eq_nil_or_concat items
  · rfl
  · rw [List.concat_eq_append] at h ⊢
    rw [lastItem_concat]
    have enough : front.length ≤ q.itemsCount := by
      rw [h.count_concat]
      exact Nat.le_succ _
    exact traverseFrom_holds enough h

end CoLinux
