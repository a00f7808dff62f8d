import Mathlib.Logic.Basic

/-!
# Runs of a step function

A system is a total step function `step : ε → σ → σ` over events `ε`. `run` folds it over a
list of events, `RunOk` says that every event of the list is allowed in the state it meets,
and `run_invariant` is the induction every safety result of the development goes through.
-/

namespace CoLinux.Lib

variable {σ ε : Type} (step : ε → σ → σ) (ok : σ → ε → Prop)

/-- The state after the events `es`, oldest first. -/
def run : List ε → σ → σ
  | [], s => s
  | e :: es, s => run es (step e s)

/-- Every event of `es` is allowed in the state it is applied to. -/
def RunOk : List ε → σ → Prop
  | [], _ => True
  | e :: es, s => ok s e ∧ RunOk es (step e s)

@[simp] theorem run_nil (s : σ) : run step [] s = s := rfl

@[simp] theorem run_cons (e : ε) (es : List ε) (s : σ) :
    run step (e :: es) s = run step es (step e s) := rfl

@[simp] theorem runOk_nil (s : σ) : RunOk step ok [] s := trivial

@[simp] theorem runOk_cons (e : ε) (es : List ε) (s : σ) :
    RunOk step ok (e :: es) s ↔ ok s e ∧ RunOk step ok es (step e s) := Iff.rfl

instance decidableRunOk [∀ s e, Decidable (ok s e)] :
    ∀ (es : List ε) (s : σ), Decidable (RunOk step ok es s)
  | [], _ => .isTrue trivial
  | e :: es, s => @instDecidableAnd _ _ _ (decidableRunOk es (step e s))

theorem run_append (es fs : List ε) (s : σ) :
    run step (es ++ fs) s = run step fs (run step es s) := by
  induction es generalizing s with
  | nil => rfl
  | cons e es ih => exact ih (step e s)

theorem runOk_append (es fs : List ε) (s : σ) :
    RunOk step ok (es ++ fs) s ↔ RunOk step ok es s ∧ RunOk step ok fs (run step es s) := by
  induction es generalizing s with
  | nil => simp
  | cons e es ih => simp [ih, and_assoc]

variable {step ok}

/-- A condition on events alone. -/
theorem runOk_of_forall {P : ε → Prop} {es : List ε} {s : σ} (h : ∀ e ∈ es, P e) :
    RunOk step (fun _ e => P e) es s := by
  induction es generalizing s with
  | nil => trivial
  | cons e es ih =>
    exact ⟨h e List.mem_cons_self, ih fun f hf => h f (List.mem_cons_of_mem _ hf)⟩

/-- An invariant that every allowed step preserves holds after every allowed run. -/
theorem run_invariant {Inv : σ → Prop}
    (preserves : ∀ s e, Inv s → ok s e → Inv (step e s)) {es : List ε} {s : σ}
    (start : Inv s) (allowed : RunOk step ok es s) : Inv (run step es s) := by
  induction es generalizing s with
  | nil => exact start
  | cons e es ih => exact ih (preserves s e start allowed.1) allowed.2

/-- An invariant of every step holds after every run. -/
theorem run_keeps (Inv : σ → Prop) (preserves : ∀ s e, Inv s → Inv (step e s)) {es : List ε} {s : σ}
    (start : Inv s) : Inv (run step es s) :=
  run_invariant (fun s e inv (_ : True) => preserves s e inv) start
    (runOk_of_forall (P := fun _ => True) fun _ _ => trivial)

/-- Two ways to allow an event that agree wherever the invariant holds allow the same runs. -/
theorem runOk_iff_of_invariant {ok' : σ → ε → Prop} {Inv : σ → Prop} {P : ε → Prop}
    (keeps : ∀ s e, Inv s → P e → Inv (step e s))
    (same : ∀ s e, Inv s → P e → (ok s e ↔ ok' s e)) {es : List ε} {s : σ} (inv : Inv s)
    (events : ∀ e ∈ es, P e) : RunOk step ok es s ↔ RunOk step ok' es s := by
  induction es generalizing s with
  | nil => exact Iff.rfl
  | cons e es ih =>
    have now : P e := events e List.mem_cons_self
    have later : ∀ f ∈ es, P f := fun f hf => events f (List.mem_cons_of_mem _ hf)
    rw [runOk_cons, runOk_cons, same s e inv now, ih (keeps s e inv now) later]

/-- When an event is allowed exactly where it keeps a property, the runs in which the property
holds all the way are the allowed ones. -/
theorem forall_prefix_iff_runOk {Inv Good : σ → Prop}
    (keeps : ∀ s e, Inv s → Inv (step e s))
    (kept_iff : ∀ s e, Inv s → Good s → (Good (step e s) ↔ ok s e)) {es : List ε} {s : σ}
    (inv : Inv s) (good : Good s) :
    (∀ p, p <+: es → Good (run step p s)) ↔ RunOk step ok es s := by
  induction es generalizing s with
  | nil => simpa using good
  | cons e es ih =>
    rw [runOk_cons]
    constructor
    · intro h
      have next : Good (step e s) := h [e] (List.cons_prefix_cons.mpr ⟨rfl, List.nil_prefix⟩)
      refine ⟨(kept_iff s e inv good).mp next, (ih (keeps s e inv) next).mp fun p hp => ?_⟩
      exact h (e :: p) (List.cons_prefix_cons.mpr ⟨rfl, hp⟩)
    · rintro ⟨allowed, rest⟩ p hp
      have next : Good (step e s) := (kept_iff s e inv good).mpr allowed
      cases p with
      | nil => exact good
      | cons f p =>
        obtain ⟨rfl, shorter⟩ := List.cons_prefix_cons.mp hp
        exact (ih (keeps s f inv) next).mpr rest p shorter

/-- When an allowed event keeps the invariant and any other event breaks the property, the runs of
events from `P` in which the property holds all the way are the allowed ones. -/
theorem forall_prefix_iff_runOk_of_events (Inv : σ → Prop) {Good : σ → Prop} {P : ε → Prop}
    (sound : ∀ s, Inv s → Good s)
    (keeps : ∀ s e, P e → Inv s → ok s e → Inv (step e s))
    (breaks : ∀ s e, P e → Inv s → ¬ ok s e → ¬ Good (step e s)) {es : List ε} {s : σ}
    (events : ∀ e ∈ es, P e) (inv : Inv s) :
    (∀ p, p <+: es → Good (run step p s)) ↔ RunOk step ok es s := by
  induction es generalizing s with
  | nil => simpa using sound s inv
  | cons e es ih =>
    have now : P e := events e List.mem_cons_self
    have later : ∀ f ∈ es, P f := fun f mem => events f (List.mem_cons_of_mem _ mem)
    rw [runOk_cons]
    constructor
    · intro h
      have next : Good (step e s) := h [e] (List.cons_prefix_cons.mpr ⟨rfl, List.nil_prefix⟩)
      have allowed : ok s e := Classical.byContradiction fun other => breaks s e now inv other next
      refine ⟨allowed, (ih later (keeps s e now inv allowed)).mp fun p hp => ?_⟩
      exact h (e :: p) (List.cons_prefix_cons.mpr ⟨rfl, hp⟩)
    · rintro ⟨allowed, rest⟩ p hp
      cases p with
      | nil => exact sound s inv
      | cons f p =>
        obtain ⟨rfl, shorter⟩ := List.cons_prefix_cons.mp hp
        exact (ih later (keeps s f now inv allowed)).mpr rest p shorter

theorem forall_prefix_iff_runOk_of_breaks {Inv Good : σ → Prop} (sound : ∀ s, Inv s → Good s)
    (keeps : ∀ s e, Inv s → ok s e → Inv (step e s))
    (breaks : ∀ s e, Inv s → ¬ ok s e → ¬ Good (step e s)) {es : List ε} {s : σ} (inv : Inv s) :
    (∀ p, p <+: es → Good (run step p s)) ↔ RunOk step ok es s :=
  forall_prefix_iff_runOk_of_events (P := fun _ => True) Inv sound (fun s e _ => keeps s e)
    (fun s e _ => breaks s e) (fun _ _ => trivial) inv

end CoLinux.Lib
