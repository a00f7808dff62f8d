import Mathlib.Data.List.Nodup
import Mathlib.Logic.Basic

/-!
# Rings of linked cells

Cells with a link in both directions, in a memory that may hold many of them. A ring is a head
cell and the cells that its `next` links lead through before they come back to it. The two ways
of changing a ring, putting a cell between two neighbours and unlinking one, are those of a
circular doubly linked list.
-/

namespace CoLinux.Lib

/-- The links of all cells. -/
structure Links (α : Type) where
  next : α → α
  prev : α → α

namespace Links

variable {α : Type}

/-- `b` comes right after `a`. -/
def Joined (m : Links α) (a b : α) : Prop := m.next a = b ∧ m.prev b = a

/-- From `a` the links lead through the cells of the list, in order, to `b`. -/
def Path (m : Links α) : α → List α → α → Prop
  | a, [], b => m.Joined a b
  | a, x :: xs, b => m.Joined a x ∧ m.Path x xs b

/-- A ring of different cells: the head and those in the list. -/
structure Ring (m : Links α) (head : α) (xs : List α) : Prop where
  path : m.Path head xs head
  nodup : (head :: xs).Nodup

variable {m m' : Links α} {a b x : α} {xs ys : List α}

theorem Path.append (left : m.Path a xs x) (right : m.Path x ys b) :
    m.Path a (xs ++ x :: ys) b := by
  induction xs generalizing a with
  | nil => exact ⟨left, right⟩
  | cons y xs ih => exact ⟨left.1, ih left.2⟩

theorem Path.split (h : m.Path a (xs ++ x :: ys) b) : m.Path a xs x ∧ m.Path x ys b := by
  induction xs generalizing a with
  | nil => exact h
  | cons y xs ih =>
    obtain ⟨left, right⟩ := ih h.2
    exact ⟨⟨h.1, left⟩, right⟩

/-- The first link of a path. -/
theorem Path.next_eq (h : m.Path a xs b) : m.next a = xs.headD b := by
  cases xs with
  | nil => exact h.1
  | cons x xs => exact h.1.1

/-- The last link of a path, backwards. -/
theorem Path.prev_eq (h : m.Path a xs b) : m.prev b = xs.getLastD a := by
  induction xs generalizing a with
  | nil => exact h.2
  | cons x xs ih =>
    rw [List.getLastD_cons]
    exact ih h.2

/-- A path depends on the forward links of its cells but the last, and on the backward links of
its cells but the first. -/
theorem Path.congr (h : m.Path a xs b) (next : ∀ c ∈ a :: xs, m'.next c = m.next c)
    (prev : ∀ c ∈ xs ++ [b], m'.prev c = m.prev c) : m'.Path a xs b := by
  induction xs generalizing a with
  | nil =>
    refine ⟨?_, ?_⟩
    · rw [next a List.mem_cons_self]
      exact h.1
    · rw [prev b List.mem_cons_self]
      exact h.2
  | cons x xs ih =>
    rw [List.cons_append, List.forall_mem_cons] at prev
    rw [List.forall_mem_cons] at next
    refine ⟨⟨?_, ?_⟩, ih h.2 next.2 prev.2⟩
    · rw [next.1]
      exact h.1.1
    · rw [prev.1]
      exact h.1.2

/-- Going forward and back again ends where it began. -/
theorem Path.prev_next (h : m.Path a xs b) {c : α} (mem : c ∈ a :: xs) : m.prev (m.next c) = c := by
  induction xs generalizing a with
  | nil =>
    obtain rfl := List.mem_singleton.mp mem
    rw [h.1, h.2]
  | cons x xs ih =>
    obtain rfl | later := List.mem_cons.mp mem
    · rw [h.1.1, h.1.2]
    · exact ih h.2 later

theorem Path.next_prev (h : m.Path a xs b) {c : α} (mem : c ∈ xs ++ [b]) :
    m.next (m.prev c) = c := by
  induction xs generalizing a with
  | nil =>
    obtain rfl := List.mem_singleton.mp mem
    rw [h.2, h.1]
  | cons x xs ih =>
    obtain rfl | later := List.mem_cons.mp mem
    · rw [h.1.2, h.1.1]
    · exact ih h.2 later

/-- A path without the cells of its first part. -/
theorem Path.drop (h : m.Path a (xs ++ ys) b) : m.Path (xs.getLastD a) ys b := by
  induction xs generalizing a with
  | nil => exact h
  | cons x xs ih =>
    rw [List.getLastD_cons]
    exact ih h.2

section Update

variable [DecidableEq α]

def setNext (m : Links α) (a b : α) : Links α :=
  { m with next := fun c => if c = a then b else m.next c }

def setPrev (m : Links α) (a b : α) : Links α :=
  { m with prev := fun c => if c = a then b else m.prev c }

@[simp] theorem setNext_next (m : Links α) (a b c : α) :
    (m.setNext a b).next c = if c = a then b else m.next c := rfl
@[simp] theorem setNext_prev (m : Links α) (a b : α) : (m.setNext a b).prev = m.prev := rfl
@[simp] theorem setPrev_prev (m : Links α) (a b c : α) :
    (m.setPrev a b).prev c = if c = a then b else m.prev c := rfl
@[simp] theorem setPrev_next (m : Links α) (a b : α) : (m.setPrev a b).next = m.next := rfl

/-- Joins `a` to `b`. -/
def join (m : Links α) (a b : α) : Links α := (m.setPrev b a).setNext a b

@[simp] theorem join_next (m : Links α) (a b c : α) :
    (m.join a b).next c = if c = a then b else m.next c := rfl
@[simp] theorem join_prev (m : Links α) (a b c : α) :
    (m.join a b).prev c = if c = b then a else m.prev c := rfl

theorem join_joined (m : Links α) (a b : α) : (m.join a b).Joined a b := by simp [Joined]

/-- A join of two cells away from a path. -/
theorem Path.join {c d : α} (h : m.Path a xs b) (source : c ∉ a :: xs) (target : d ∉ xs ++ [b]) :
    (m.join c d).Path a xs b := by
  apply h.congr
  · intro e he
    rw [join_next, if_neg]
    rintro rfl
    exact source he
  · intro e he
    rw [join_prev, if_neg]
    rintro rfl
    exact target he

/-- The first part of a path, and what it runs into once `a'` is joined to `b'`. -/
theorem Path.rejoin {b' : α} (h : m.Path a (xs ++ ys) b) (distinct : (a :: xs).Nodup)
    (fresh : b' ∉ xs) : (m.join (xs.getLastD a) b').Path a xs b' := by
  induction xs generalizing a with
  | nil => exact m.join_joined a b'
  | cons x xs ih =>
    rw [List.getLastD_cons]
    obtain ⟨absent, distinct⟩ := List.nodup_cons.mp distinct
    rw [List.mem_cons, not_or] at fresh
    refine ⟨⟨?_, ?_⟩, ih h.2 distinct fresh.2⟩
    · rw [join_next, if_neg]
      · exact h.1.1
      · rintro rfl
        exact absent List.getLastD_mem_cons
    · rw [join_prev, if_neg (Ne.symm fresh.1)]
      exact h.1.2

/-- The last part of a path, and what runs into it once `a'` is joined to its first cell. -/
theorem Path.rejoin_right {a' : α} (h : m.Path a ys b) (distinct : (ys ++ [b]).Nodup)
    (fresh : a' ∉ ys) : (m.join a' (ys.headD b)).Path a' ys b := by
  cases ys with
  | nil => exact m.join_joined a' b
  | cons y ys =>
    rw [List.cons_append, List.nodup_cons] at distinct
    exact ⟨m.join_joined a' y, h.2.join fresh distinct.1⟩

/-! ## Changing a ring -/

/-- A cell put between the last cell of `xs` and the first of `ys`. -/
theorem Ring.insert {head : α} (ring : m.Ring head (xs ++ ys)) (fresh : x ∉ head :: (xs ++ ys)) :
    ((m.join x (ys.headD head)).join (xs.getLastD head) x).Ring head (xs ++ x :: ys) := by
  have distinct := ring.nodup
  rw [← List.cons_append] at distinct fresh
  obtain ⟨front, back, apart⟩ := List.nodup_append.mp distinct
  rw [List.mem_append, not_or] at fresh
  have last : xs.getLastD head ∈ head :: xs := List.getLastD_mem_cons
  have headOut : head ∉ ys := fun mem => apart head List.mem_cons_self head mem rfl
  have lastOut : xs.getLastD head ∉ ys := fun mem => apart _ last _ mem rfl
  have firstOut : ∀ c ∈ xs ++ [x], c ≠ ys.headD head := by
    intro c hc
    cases ys with
    | nil =>
      rintro rfl
      obtain mem | mem := List.mem_append.mp hc
      · exact (List.nodup_cons.mp front).1 mem
      · exact fresh.1 (List.mem_singleton.mp mem ▸ List.mem_cons_self)
    | cons y ys =>
      rintro rfl
      obtain mem | mem := List.mem_append.mp hc
      · exact apart _ (List.mem_cons_of_mem _ mem) _ List.mem_cons_self rfl
      · exact fresh.2 (List.mem_singleton.mp mem ▸ List.mem_cons_self)
  constructor
  · apply Path.append
    · have left : (m.join (xs.getLastD head) x).Path head xs x :=
        ring.path.rejoin front fun mem => fresh.1 (List.mem_cons_of_mem _ mem)
      apply left.congr
      · intro c hc
        have other : c ≠ x := fun same => fresh.1 (same ▸ hc)
        simp [other]
      · intro c hc
        rw [join_prev, join_prev, join_prev, if_neg (firstOut c hc)]
    · have right : (m.join x (ys.headD head)).Path x ys head := by
        apply ring.path.drop.rejoin_right
        · rw [List.nodup_append]
          refine ⟨back, List.nodup_singleton head, fun c hc d hd => ?_⟩
          rw [List.mem_singleton.mp hd]
          exact fun same => headOut (same ▸ hc)
        · exact fresh.2
      apply right.join
      · rw [List.mem_cons, not_or]
        exact ⟨fun same => fresh.1 (same ▸ last), lastOut⟩
      · rw [List.mem_append, not_or, List.mem_singleton]
        exact ⟨fresh.2, fun same => fresh.1 (same ▸ List.mem_cons_self)⟩
  · rw [← List.cons_append, List.nodup_middle, List.nodup_cons, List.mem_append, not_or]
    exact ⟨fresh, distinct⟩

/-- A cell taken out between its neighbours. -/
theorem Ring.erase {head : α} (ring : m.Ring head (xs ++ x :: ys)) :
    (m.join (m.prev x) (m.next x)).Ring head (xs ++ ys) := by
  have distinct := ring.nodup
  rw [← List.cons_append, List.nodup_middle, List.nodup_cons] at distinct
  obtain ⟨-, distinct⟩ := distinct
  obtain ⟨front, back, apart⟩ := List.nodup_append.mp distinct
  have last : xs.getLastD head ∈ head :: xs := List.getLastD_mem_cons
  obtain ⟨left, right⟩ := ring.path.split
  rw [left.prev_eq, right.next_eq]
  refine ⟨?_, distinct⟩
  cases ys with
  | nil =>
    rw [List.append_nil]
    exact ring.path.rejoin front (List.nodup_cons.mp front).1
  | cons y ys =>
    have yOut : y ∉ head :: xs := fun mem => apart y mem y List.mem_cons_self rfl
    apply Path.append
    · exact ring.path.rejoin front fun mem => yOut (List.mem_cons_of_mem _ mem)
    · apply right.2.join
      · exact fun mem => apart _ last _ mem rfl
      · rw [List.mem_append, not_or, List.mem_singleton]
        exact ⟨(List.nodup_cons.mp back).1, fun same => yOut (same ▸ List.mem_cons_self)⟩

end Update

end Links

end CoLinux.Lib
