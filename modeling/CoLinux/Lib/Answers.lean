import CoLinux.Lib.Run

/-!
# Runs that answer

A system whose steps answer, and the simulation rule: a relation that every allowed step keeps,
both sides giving the same answer, is kept by every allowed run.
-/

namespace CoLinux.Lib

variable {σ τ ε α : Type}

/-- The answers to the events, oldest first, and the state after them. -/
def answers (step : ε → σ → α × σ) : List ε → σ → List α × σ
  | [], s => ([], s)
  | e :: es, s =>
    ((step e s).1 :: (answers step es (step e s).2).1, (answers step es (step e s).2).2)

/-- The events are allowed one after the other. -/
def AnswersOk (step : ε → σ → α × σ) (ok : σ → ε → Prop) : List ε → σ → Prop :=
  RunOk (fun e s => (step e s).2) ok

instance decidableAnswersOk {step : ε → σ → α × σ} {ok : σ → ε → Prop}
    [∀ s e, Decidable (ok s e)] (es : List ε) (s : σ) : Decidable (AnswersOk step ok es s) :=
  decidableRunOk _ _ es s

/-- `fine` simulates `coarse` over every run that `coarse` allows. -/
theorem answers_simulate {fine : ε → σ → α × σ} {coarse : ε → τ → α × τ} {ok : τ → ε → Prop}
    {R : σ → τ → Prop}
    (sim : ∀ e s t, R s t → ok t e → (fine e s).1 = (coarse e t).1 ∧ R (fine e s).2 (coarse e t).2)
    {es : List ε} {s : σ} {t : τ} (start : R s t) (allowed : AnswersOk coarse ok es t) :
    (answers fine es s).1 = (answers coarse es t).1 ∧
      R (answers fine es s).2 (answers coarse es t).2 := by
  induction es generalizing s t with
  | nil => exact ⟨rfl, start⟩
  | cons e es ih =>
    obtain ⟨first, later⟩ := allowed
    obtain ⟨same, related⟩ := sim e s t start first
    obtain ⟨rest, final⟩ := ih related later
    exact ⟨congrArg₂ List.cons same rest, final⟩

end CoLinux.Lib
