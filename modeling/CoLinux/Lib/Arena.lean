import Mathlib.Algebra.Ring.Nat
import Mathlib.Data.List.Basic
import Mathlib.Logic.Function.Basic

/-!
# Arenas of blocks

Blocks are numbered as they are allocated; a block holds a value until it is freed, and its number
is never used again. `total` adds up a measure over the blocks that are held, so that references
to a block, wherever they are kept, can be counted: `alloc`, `modify` and `free` change a total by
what they do to one block.
-/

namespace CoLinux.Lib

structure Arena (α : Type) where
  get : Nat → Option α
  next : Nat
  fresh : ∀ i, next ≤ i → get i = none

namespace Arena

variable {α : Type} {a : Arena α} {i j : Nat} {x y : α} {f g : α → Nat} {h : α → α}

@[ext] theorem ext {a b : Arena α} (get : a.get = b.get) (next : a.next = b.next) : a = b := by
  cases a
  cases b
  cases get
  cases next
  rfl

def empty : Arena α := ⟨fun _ => none, 0, fun _ _ => rfl⟩

/-- The new block has the number `a.next`. -/
def alloc (a : Arena α) (x : α) : Arena α where
  get := fun i => if i = a.next then some x else a.get i
  next := a.next + 1
  fresh := by
    intro i le
    rw [if_neg (by omega), a.fresh i (by omega)]

def modify (a : Arena α) (j : Nat) (h : α → α) : Arena α where
  get := fun i => if i = j then (a.get i).map h else a.get i
  next := a.next
  fresh := by
    intro i le
    simp [a.fresh i le]

def free (a : Arena α) (j : Nat) : Arena α where
  get := fun i => if i = j then none else a.get i
  next := a.next
  fresh := by
    intro i le
    simp [a.fresh i le]

theorem lt_next (held : a.get i = some x) : i < a.next := by
  apply Nat.lt_of_not_le
  intro le
  rw [a.fresh i le] at held
  exact absurd held nofun

@[simp] theorem get_alloc_next : (a.alloc x).get a.next = some x := if_pos rfl

theorem get_alloc (held : a.get i = some y) : (a.alloc x).get i = some y := by
  have lt := lt_next held
  rw [← held]
  exact if_neg (by omega)

theorem get_alloc_ne (other : i ≠ a.next) : (a.alloc x).get i = a.get i := if_neg other

@[simp] theorem get_modify : (a.modify i h).get i = (a.get i).map h := if_pos rfl

theorem get_modify_ne (other : i ≠ j) : (a.modify j h).get i = a.get i := if_neg other

@[simp] theorem get_free : (a.free i).get i = none := if_pos rfl

theorem get_free_ne (other : i ≠ j) : (a.free j).get i = a.get i := if_neg other

@[simp] theorem modify_eq_none : (a.modify j h).get i = none ↔ a.get i = none := by
  by_cases same : i = j
  · rw [same, get_modify, Option.map_eq_none_iff]
  · rw [get_modify_ne same]

theorem get_modify_of (held : a.get i = some x) : (a.modify i h).get i = some (h x) := by
  rw [get_modify, held]
  rfl

theorem modify_cases (held : (a.modify j h).get i = some y) :
    (i = j ∧ ∃ x, a.get j = some x ∧ h x = y) ∨ i ≠ j ∧ a.get i = some y := by
  by_cases same : i = j
  · subst same
    rw [get_modify] at held
    exact .inl ⟨rfl, Option.map_eq_some_iff.mp held⟩
  · rw [get_modify_ne same] at held
    exact .inr ⟨same, held⟩

theorem free_cases (held : (a.free j).get i = some x) : i ≠ j ∧ a.get i = some x := by
  have other : i ≠ j := by
    rintro rfl
    rw [get_free] at held
    exact absurd held nofun
  rw [get_free_ne other] at held
  exact ⟨other, held⟩

theorem alloc_cases (held : (a.alloc x).get i = some y) :
    i = a.next ∧ y = x ∨ i ≠ a.next ∧ a.get i = some y := by
  by_cases new : i = a.next
  · subst new
    rw [get_alloc_next] at held
    exact .inl ⟨rfl, (Option.some.inj held).symm⟩
  · rw [get_alloc_ne new] at held
    exact .inr ⟨new, held⟩

@[simp] theorem free_modify : (a.modify i h).free i = a.free i := by
  ext j
  · by_cases same : j = i
    · rw [same, get_free, get_free]
    · rw [get_free_ne same, get_free_ne same, get_modify_ne same]
  · rfl

theorem modify_eq_self (held : a.get i = some x) (same : h x = x) : a.modify i h = a := by
  ext j
  · by_cases this : j = i
    · rw [this, get_modify_of held, same, held]
    · rw [get_modify_ne this]
  · rfl

theorem modify_modify (h k : α → α) :
    (a.modify i h).modify i k = a.modify i fun x => k (h x) := by
  ext j
  · by_cases same : j = i
    · rw [same, get_modify, get_modify, get_modify, Option.map_map]
      rfl
    · rw [get_modify_ne same, get_modify_ne same, get_modify_ne same]
  · rfl

theorem free_modify_ne (other : i ≠ j) : (a.modify i h).free j = (a.free j).modify i h := by
  ext n
  · by_cases one : n = j
    · subst one
      rw [get_free, get_modify_ne other.symm, get_free]
    · by_cases two : n = i
      · subst two
        rw [get_free_ne one, get_modify, get_modify, get_free_ne one]
      · rw [get_free_ne one, get_modify_ne two, get_modify_ne two, get_free_ne one]
  · rfl

theorem modify_comm (other : i ≠ j) (h k : α → α) :
    (a.modify i h).modify j k = (a.modify j k).modify i h := by
  ext n
  · by_cases one : n = i
    · subst one
      rw [get_modify_ne other, get_modify, get_modify, get_modify_ne other]
    · by_cases two : n = j
      · subst two
        rw [get_modify, get_modify_ne one, get_modify_ne one, get_modify]
      · rw [get_modify_ne two, get_modify_ne one, get_modify_ne one, get_modify_ne two]
  · rfl

/-! ## Totals -/

/-- The sum of a measure over the blocks that are held. -/
def total (a : Arena α) (f : α → Nat) : Nat :=
  ((List.range a.next).map fun i => (a.get i).elim 0 f).sum

/-- Two sums that differ at one place. -/
theorem sum_map_exchange (p q : Nat → Nat) {l : List Nat} (distinct : l.Nodup) (mem : i ∈ l)
    (same : ∀ j ∈ l, j ≠ i → p j = q j) : (l.map p).sum + q i = (l.map q).sum + p i := by
  induction l with
  | nil => exact absurd mem List.not_mem_nil
  | cons k l ih =>
    obtain ⟨fresh, distinct⟩ := List.nodup_cons.mp distinct
    rw [List.map_cons, List.map_cons, List.sum_cons, List.sum_cons]
    rcases List.mem_cons.mp mem with rfl | mem
    · have rest : l.map p = l.map q := List.map_congr_left fun j later =>
        same j (List.mem_cons_of_mem _ later) fun eq => fresh (eq ▸ later)
      rw [rest]
      omega
    · have first : p k = q k :=
        same k List.mem_cons_self fun eq => fresh (eq ▸ mem)
      have later := ih distinct mem fun j inside => same j (List.mem_cons_of_mem _ inside)
      omega

theorem total_exchange {b : Arena α} (next : b.next = a.next) (held : i < a.next)
    (same : ∀ j, j ≠ i → b.get j = a.get j) :
    b.total f + (a.get i).elim 0 f = a.total f + (b.get i).elim 0 f := by
  rw [total, total, next]
  apply sum_map_exchange (fun j => (b.get j).elim 0 f) (fun j => (a.get j).elim 0 f)
    List.nodup_range (List.mem_range.mpr held)
  intro j _ other
  rw [same j other]

theorem total_modify (held : a.get i = some x) :
    (a.modify i h).total f + f x = a.total f + f (h x) := by
  have eq := total_exchange (a := a) (b := a.modify i h) (f := f) rfl (lt_next held)
    fun j other => get_modify_ne other
  rwa [get_modify, held] at eq

theorem total_free (held : a.get i = some x) : (a.free i).total f + f x = a.total f := by
  have eq := total_exchange (a := a) (b := a.free i) (f := f) rfl (lt_next held)
    fun j other => get_free_ne other
  rwa [get_free, held] at eq

theorem total_alloc : (a.alloc x).total f = a.total f + f x := by
  rw [total, total]
  show ((List.range (a.next + 1)).map _).sum = _
  rw [List.range_succ, List.map_append, List.sum_append, List.map_singleton, List.sum_singleton,
    get_alloc_next]
  congr 1
  apply congrArg List.sum
  apply List.map_congr_left
  intro i mem
  have lt := List.mem_range.mp mem
  rw [get_alloc_ne (by omega)]

theorem le_total (held : a.get i = some x) : f x ≤ a.total f := by
  have eq := total_free (f := f) held
  omega

theorem total_eq_zero : a.total f = 0 ↔ ∀ i x, a.get i = some x → f x = 0 := by
  constructor
  · intro none i x held
    have le := le_total (f := f) held
    omega
  · intro zero
    apply List.sum_eq_zero_iff_forall_eq_nat.mpr
    intro n mem
    obtain ⟨i, -, rfl⟩ := List.mem_map.mp mem
    cases held : a.get i with
    | none => rfl
    | some x => exact zero i x held

/-- A total that a block does not count in. -/
theorem total_modify_same (same : ∀ x, a.get i = some x → f (h x) = f x) :
    (a.modify i h).total f = a.total f := by
  cases held : a.get i with
  | none =>
    have eq : a.modify i h = a := by
      ext j
      · by_cases one : j = i
        · rw [one, get_modify, held]
          rfl
        · rw [get_modify_ne one]
      · rfl
    rw [eq]
  | some x =>
    have eq := total_modify (h := h) (f := f) held
    rw [same x held] at eq
    omega

/-! ## All blocks -/

/-- `P` holds of every block. -/
def All (a : Arena α) (P : α → Prop) : Prop := ∀ i x, a.get i = some x → P x

instance (a : Arena α) (P : α → Prop) [DecidablePred P] : Decidable (a.All P) :=
  decidable_of_iff (∀ i < a.next, ∀ x ∈ a.get i, P x)
    ⟨fun all i x held => all i (lt_next held) x held, fun all i _ x held => all i x held⟩

end Arena

end CoLinux.Lib
