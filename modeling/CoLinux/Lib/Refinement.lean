import CoLinux.Lib.Run

/-!
# Two systems side by side

A system and a plainer one that says what it is for take the same events. The first relates to the
second as long as every event is allowed, and an event that is not allowed shows.
-/

namespace CoLinux.Lib

variable {σ τ ε : Type} {step : ε → σ → σ} {spec : ε → τ → τ} {valid ok : σ → ε → Prop}

/-- A valid run looks like a run of the plainer system all the way exactly when every event of it is
allowed. -/
theorem forall_prefix_seen_iff_runOk {rel seen : σ → τ → Prop}
    (sound : ∀ s a, rel s a → seen s a)
    (keeps : ∀ s a e, rel s a → valid s e → ok s e → rel (step e s) (spec e a))
    (breaks : ∀ s a e, rel s a → valid s e → ¬ ok s e → ¬ seen (step e s) (spec e a))
    {es : List ε} {s : σ} {a : τ} (start : rel s a) (valids : RunOk step valid es s) :
    (∀ p, p <+: es → seen (run step p s) (run spec p a)) ↔ RunOk step ok es s := by
  induction es generalizing s a with
  | nil => simpa using sound s a start
  | cons e es ih =>
    rw [runOk_cons]
    constructor
    · intro h
      have next : seen (step e s) (spec e a) :=
        h [e] (List.cons_prefix_cons.mpr ⟨rfl, List.nil_prefix⟩)
      have allowed : ok s e :=
        Classical.byContradiction fun other => breaks s a e start valids.1 other next
      refine ⟨allowed, (ih (keeps s a e start valids.1 allowed) valids.2).mp ?_⟩
      intro p hp
      exact h (e :: p) (List.cons_prefix_cons.mpr ⟨rfl, hp⟩)
    · rintro ⟨allowed, rest⟩ p hp
      cases p with
      | nil => exact sound s a start
      | cons f p =>
        obtain ⟨rfl, shorter⟩ := List.cons_prefix_cons.mp hp
        exact (ih (keeps s a f start valids.1 allowed) valids.2).mpr rest p shorter

end CoLinux.Lib
