import Mathlib.Data.List.Nodup
import Mathlib.Data.List.Basic
import Mathlib.Data.List.Perm.Basic

/-!
# Ledgers of acquired resources

A ledger lists what has been acquired and not yet released, and what was released without being
held. A resource that is acquired again while it is held stands in the list twice, so a lost
handle shows as a resource that stays in the ledger.
-/

namespace CoLinux.Lib

structure Ledger (ρ : Type) where
  /-- What is held, newest first. -/
  live : List ρ
  /-- Releases of what was not held, and uses of it. -/
  faults : List ρ
  deriving DecidableEq, Repr

namespace Ledger

variable {ρ : Type}

def empty : Ledger ρ := ⟨[], []⟩

def acquire (l : Ledger ρ) (r : ρ) : Ledger ρ := { l with live := r :: l.live }

def fault (l : Ledger ρ) (r : ρ) : Ledger ρ := { l with faults := r :: l.faults }

@[simp] theorem acquire_live (l : Ledger ρ) (r : ρ) : (l.acquire r).live = r :: l.live := rfl
@[simp] theorem acquire_faults (l : Ledger ρ) (r : ρ) : (l.acquire r).faults = l.faults := rfl
@[simp] theorem fault_live (l : Ledger ρ) (r : ρ) : (l.fault r).live = l.live := rfl
@[simp] theorem fault_faults (l : Ledger ρ) (r : ρ) : (l.fault r).faults = r :: l.faults := rfl

/-- Nothing was released that was not held, and just `rs` is held, in any order. -/
structure Holds (l : Ledger ρ) (rs : List ρ) : Prop where
  live : l.live.Perm rs
  faults : l.faults = []

variable {l : Ledger ρ} {r : ρ} {rs xs ys : List ρ}

theorem Holds.perm (h : l.Holds rs) (same : rs.Perm xs) : l.Holds xs :=
  ⟨h.live.trans same, h.faults⟩

theorem holds_empty : (empty : Ledger ρ).Holds [] := ⟨.nil, rfl⟩

theorem Holds.eq_empty (h : l.Holds []) : l = empty := by
  cases l with
  | mk live faults =>
    cases h.live.eq_nil
    cases h.faults
    rfl

theorem Holds.acquire (h : l.Holds rs) (r : ρ) : (l.acquire r).Holds (r :: rs) :=
  ⟨h.live.cons r, h.faults⟩

variable [DecidableEq ρ]

def release (l : Ledger ρ) (r : ρ) : Ledger ρ :=
  if r ∈ l.live then { l with live := l.live.erase r } else l.fault r

/-- Acquires the resources of a list, first to last. -/
def acquireAll (l : Ledger ρ) (rs : List ρ) : Ledger ρ := rs.foldl acquire l

/-- Releases the resources of a list, first to last. -/
def releaseAll (l : Ledger ρ) (rs : List ρ) : Ledger ρ := rs.foldl release l

@[simp] theorem release_acquire (l : Ledger ρ) (r : ρ) : (l.acquire r).release r = l := by
  simp [release]

theorem release_mem {l : Ledger ρ} {r : ρ} (h : r ∈ l.live) :
    l.release r = ⟨l.live.erase r, l.faults⟩ := if_pos h

theorem release_not_mem {l : Ledger ρ} {r : ρ} (h : r ∉ l.live) : l.release r = l.fault r :=
  if_neg h

theorem mem_release {l : Ledger ρ} {q r : ρ} (h : q ≠ r) :
    q ∈ (l.release r).live ↔ q ∈ l.live := by
  unfold release
  split
  · exact List.mem_erase_of_ne h
  · exact Iff.rfl

theorem count_release {l : Ledger ρ} {q r : ρ} (h : q ≠ r) :
    (l.release r).live.count q = l.live.count q := by
  unfold release
  split
  · exact List.count_erase_of_ne h
  · rfl

theorem count_release_self {l : Ledger ρ} {r : ρ} :
    (l.release r).live.count r = l.live.count r - 1 := by
  unfold release
  split
  · exact List.count_erase_self
  · next h => rw [fault_live, List.count_eq_zero.mpr h]

/-- What is held stays held unless it is in the list. -/
theorem mem_releaseAll {l : Ledger ρ} {rs : List ρ} {q : ρ} (h : q ∉ rs) :
    q ∈ (l.releaseAll rs).live ↔ q ∈ l.live := by
  induction rs generalizing l with
  | nil => rfl
  | cons r rs ih =>
    rw [List.mem_cons, not_or] at h
    exact (ih h.2).trans (mem_release h.1)

/-- Releasing makes nothing held. -/
theorem live_of_releaseAll {l : Ledger ρ} {rs : List ρ} {q : ρ}
    (h : q ∈ (l.releaseAll rs).live) : q ∈ l.live := by
  induction rs generalizing l with
  | nil => exact h
  | cons r rs ih =>
    have later := ih (l := l.release r) h
    unfold release at later
    split at later
    · exact List.mem_of_mem_erase later
    · exact later

/-- Releasing different resources that are all held leaves the others, in order. -/
theorem releaseAll_nodup {l : Ledger ρ} {rs : List ρ} (held : ∀ r ∈ rs, r ∈ l.live)
    (distinct : rs.Nodup) (once : l.live.Nodup) :
    l.releaseAll rs = ⟨l.live.filter (· ∉ rs), l.faults⟩ := by
  induction rs generalizing l with
  | nil => simp [releaseAll]
  | cons r rs ih =>
    obtain ⟨fresh, distinct⟩ := List.nodup_cons.mp distinct
    have first := release_mem (held r List.mem_cons_self)
    rw [releaseAll, List.foldl_cons, first]
    refine (ih (fun q hq => ?_) distinct (once.erase r)).trans ?_
    · exact (List.mem_erase_of_ne (fun same : q = r => fresh (same ▸ hq))).mpr
        (held q (List.mem_cons_of_mem _ hq))
    · simp only [once.erase_eq_filter, List.filter_filter, mk.injEq, and_true]
      apply List.filter_congr
      intro q _
      by_cases same : q = r <;> simp [same]

theorem release_acquire_ne (l : Ledger ρ) {q r : ρ} (h : q ≠ r) :
    (l.acquire r).release q = (l.release q).acquire r := by
  by_cases held : q ∈ l.live
  · have later : q ∈ (l.acquire r).live := List.mem_cons_of_mem r held
    rw [release_mem later, release_mem held, acquire_live,
      List.erase_cons_tail (by simpa using h.symm)]
    rfl
  · rw [release_not_mem held, release_not_mem]
    · rfl
    · rw [acquire_live, List.mem_cons, not_or]
      exact ⟨h, held⟩

theorem release_acquireAll (l : Ledger ρ) {rs : List ρ} {q : ρ} (h : q ∉ rs) :
    (l.acquireAll rs).release q = (l.release q).acquireAll rs := by
  induction rs generalizing l with
  | nil => rfl
  | cons r rs ih =>
    rw [List.mem_cons, not_or] at h
    exact (ih (l.acquire r) h.2).trans (congrArg (acquireAll · rs) (l.release_acquire_ne h.1))

/-- Releasing what was just acquired. -/
theorem releaseAll_acquireAll (l : Ledger ρ) {rs : List ρ} (distinct : rs.Nodup) :
    (l.acquireAll rs).releaseAll rs = l := by
  induction rs generalizing l with
  | nil => rfl
  | cons r rs ih =>
    obtain ⟨fresh, distinct⟩ := List.nodup_cons.mp distinct
    have first : ((l.acquire r).acquireAll rs).release r = l.acquireAll rs := by
      rw [release_acquireAll _ fresh, release_acquire]
    exact (congrArg (releaseAll · rs) first).trans (ih l distinct)

omit [DecidableEq ρ] in
theorem mem_acquireAll {l : Ledger ρ} {rs : List ρ} {q : ρ} :
    q ∈ (l.acquireAll rs).live ↔ q ∈ rs ∨ q ∈ l.live := by
  induction rs generalizing l with
  | nil => simp [acquireAll]
  | cons r rs ih =>
    refine (ih (l := l.acquire r)).trans ?_
    rw [acquire_live, List.mem_cons, List.mem_cons, or_assoc, or_left_comm]

omit [DecidableEq ρ] in
theorem acquireAll_faults (l : Ledger ρ) (rs : List ρ) : (l.acquireAll rs).faults = l.faults := by
  induction rs generalizing l with
  | nil => rfl
  | cons r rs ih => exact ih (l.acquire r)

omit [DecidableEq ρ] in
theorem acquireAll_append (l : Ledger ρ) (rs qs : List ρ) :
    l.acquireAll (rs ++ qs) = (l.acquireAll rs).acquireAll qs :=
  List.foldl_append

theorem Holds.release (h : l.Holds (xs ++ r :: ys)) :
    (l.release r).Holds (xs ++ ys) := by
  have middle : l.live.Perm (r :: (xs ++ ys)) := h.live.trans List.perm_middle
  have held : r ∈ l.live := middle.mem_iff.mpr List.mem_cons_self
  rw [release_mem held]
  refine ⟨?_, h.faults⟩
  have erased := middle.erase r
  rwa [List.erase_cons_head] at erased

theorem Holds.release_head (h : l.Holds (r :: rs)) : (l.release r).Holds rs :=
  @Holds.release ρ l r [] rs _ h

/-- Releasing all of a list that is held. -/
theorem Holds.releaseAll {l : Ledger ρ} {rs : List ρ} (h : l.Holds (xs ++ rs)) :
    (l.releaseAll rs).Holds xs := by
  induction rs generalizing l with
  | nil => rwa [List.append_nil] at h
  | cons r rs ih => exact ih h.release

/-- A fault is not forgotten. -/
theorem faults_release (l : Ledger ρ) (r : ρ) (bad : l.faults ≠ []) :
    (l.release r).faults ≠ [] := by
  rw [release]
  split
  · exact bad
  · exact List.cons_ne_nil _ _

end Ledger

end CoLinux.Lib
