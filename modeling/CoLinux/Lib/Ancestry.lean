import Mathlib.Logic.Relation

/-!
# Trees given by parent pointers

Nodes of a type `α` with a partial `parent` function. `Below` is being a node or one of its
descendants, `Rooted` is having a finite chain of ancestors, which rules out cycles and is what
inductions go along. The lemmas say what an update of the parent function does to both: cutting
nodes off, hanging a node under another one, and changes outside a set that is closed under
`parent`.
-/

namespace CoLinux.Lib

variable {α : Type} {parent parent' : α → Option α}

/-- `x` is `a` or one of its descendants. -/
def Below (parent : α → Option α) (a x : α) : Prop :=
  Relation.ReflTransGen (fun x p => parent x = some p) x a

/-- The ancestors of a node end somewhere. -/
def Rooted (parent : α → Option α) (x : α) : Prop := Acc (fun p x => parent x = some p) x

namespace Below

theorem refl (a : α) : Below parent a a := Relation.ReflTransGen.refl

theorem child {a x p : α} (h : parent x = some p) (up : Below parent a p) : Below parent a x :=
  Relation.ReflTransGen.head h up

theorem trans {a b x : α} (h : Below parent a b) (h' : Below parent b x) : Below parent a x :=
  Relation.ReflTransGen.trans h' h

theorem cases_child {a x : α} (h : Below parent a x) :
    x = a ∨ ∃ p, parent x = some p ∧ Below parent a p :=
  (Relation.ReflTransGen.cases_head h).imp id fun ⟨p, step, up⟩ => ⟨p, step, up⟩

/-- With fewer parents there are fewer descendants. -/
theorem mono (fewer : ∀ x p, parent' x = some p → parent x = some p) {a x : α}
    (h : Below parent' a x) : Below parent a x :=
  Relation.ReflTransGen.mono fewer _ _ h

/-- Induction from the node upwards. -/
theorem rec_up {a : α} {motive : α → Prop} (base : motive a)
    (step : ∀ x p, parent x = some p → Below parent a p → motive p → motive x) {x : α}
    (h : Below parent a x) : motive x :=
  Relation.ReflTransGen.head_induction_on h base fun h up ih => step _ _ h up ih

/-- The nodes below `a` among those of a set that is closed under `parent`. -/
theorem congr_on {S : α → Prop} (closed : ∀ x p, S x → parent x = some p → S p)
    (same : ∀ x, S x → parent' x = parent x) {a x : α} (hx : S x) :
    Below parent' a x ↔ Below parent a x := by
  constructor
  · intro h
    revert hx
    refine rec_up (motive := fun x => S x → Below parent a x) (fun _ => refl a) ?_ h
    intro x p step _ ih hx
    rw [same x hx] at step
    exact child step (ih (closed x p hx step))
  · intro h
    revert hx
    refine rec_up (motive := fun x => S x → Below parent' a x) (fun _ => refl a) ?_ h
    intro x p step _ ih hx
    exact child ((same x hx).trans step) (ih (closed x p hx step))

end Below

namespace Rooted

theorem top {x : α} (h : parent x = none) : Rooted parent x :=
  Acc.intro x fun p step => absurd (h.symm.trans step) (by simp)

theorem child {x p : α} (h : parent x = some p) (up : Rooted parent p) : Rooted parent x := by
  refine Acc.intro x fun q step => ?_
  obtain rfl : p = q := Option.some.inj (h.symm.trans step)
  exact up

/-- No node is below one of its children. -/
theorem not_below {x p : α} (h : Rooted parent x) (step : parent x = some p) :
    ¬Below parent x p := by
  induction h generalizing p with
  | intro x _ ih =>
    intro cycle
    obtain rfl | ⟨q, up, below⟩ := cycle.cases_child
    · exact ih p step step cycle
    · exact ih p step up ((Below.child step (Below.refl p)).trans below)

/-- Cutting nodes off their parents. -/
theorem mono (fewer : ∀ x p, parent' x = some p → parent x = some p) {x : α}
    (h : Rooted parent x) : Rooted parent' x := by
  induction h with
  | intro x _ ih => exact Acc.intro x fun p step => ih p (fewer x p step)

theorem congr_on {S : α → Prop} (closed : ∀ x p, S x → parent x = some p → S p)
    (same : ∀ x, S x → parent' x = parent x) {x : α} (hx : S x) (h : Rooted parent x) :
    Rooted parent' x := by
  induction h with
  | intro x _ ih =>
    refine Acc.intro x fun p step => ?_
    rw [same x hx] at step
    exact ih p step (closed x p hx step)

/-- Hanging `a` under a node that is not below it. -/
theorem hang {a b : α} (moved : parent' a = some b)
    (same : ∀ x, x ≠ a → parent' x = parent x) (root : Rooted parent b)
    (apart : ¬Below parent a b) {x : α} (h : Rooted parent x) : Rooted parent' x := by
  have target : Rooted parent' b :=
    root.congr_on (S := fun y => ¬Below parent a y) (fun y q hy step up => hy (up.child step))
      (fun y hy => same y fun eq => hy (eq ▸ Below.refl y)) apart
  induction h with
  | intro x _ ih =>
    by_cases this : x = a
    · exact (this ▸ target.child moved : Rooted parent' x)
    · refine Acc.intro x fun p step => ih p ?_
      rwa [same x this] at step

end Rooted

end CoLinux.Lib
