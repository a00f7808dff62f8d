import CoLinux.Kernel.Pages

/-!
# The page splitting loop

Every part is non-empty and stays inside one page, so the loop of
`co_split_by_pages_and_callback` is an induction over the remaining range. The rules here are
all that later proofs know about it.
-/

namespace CoLinux

variable {σ : Type} {func : Nat → Nat → σ → Step σ}

theorem pagePart_eq {offset : Nat} (h : offset < wordSize) :
    pagePart offset = 4096 - offset % 4096 := by
  unfold pagePart
  simp only [coArchPageSize, wordSize] at *
  omega

/-- The bytes one turn of the loop handles. -/
theorem partSize_bounds {offset size : Nat} (ho : offset < wordSize) (hs : size ≠ 0) :
    0 < min (pagePart offset) size ∧ min (pagePart offset) size ≤ size ∧
      offset % 4096 + min (pagePart offset) size ≤ 4096 := by
  rw [pagePart_eq ho]
  omega

/-- More iterations than bytes change nothing. -/
theorem splitLoop_fuel_irrel {f g offset size : Nat} (s : σ) (ho : offset < wordSize)
    (hf : size ≤ f) (hg : size ≤ g) :
    splitLoop func f offset size s = splitLoop func g offset size s := by
  induction f generalizing g offset size s with
  | zero =>
    obtain rfl : size = 0 := Nat.le_zero.mp hf
    cases g <;> simp [splitLoop]
  | succ f ih =>
    by_cases hz : size = 0
    · subst hz; cases g <;> simp [splitLoop]
    · cases g with
      | zero => exact absurd (Nat.le_zero.mp hg) hz
      | succ g =>
        obtain ⟨pos, le, -⟩ := partSize_bounds ho hz
        simp only [splitLoop, hz, if_false]
        generalize min (pagePart offset) size = part at pos le
        have next (s : σ) : splitLoop func f ((offset + part) % wordSize) (size - part) s =
            splitLoop func g ((offset + part) % wordSize) (size - part) s :=
          ih s (Nat.mod_lt _ (by decide)) (by omega) (by omega)
        simp only [Step.andThen, next]

theorem splitLoop_fuel {fuel size : Nat} (h : size ≤ fuel) {offset : Nat} (s : σ)
    (ho : offset < wordSize) :
    splitLoop func fuel offset size s = coSplitByPagesAndCallback func offset size s :=
  splitLoop_fuel_irrel s ho h (Nat.le_refl _)

@[simp] theorem coSplit_zero (offset : Nat) (s : σ) :
    coSplitByPagesAndCallback func offset 0 s = (.ok, s) := rfl

/-- One turn of the loop. -/
theorem coSplit_turn {offset size : Nat} (s : σ) (ho : offset < wordSize) (hs : size ≠ 0) :
    coSplitByPagesAndCallback func offset size s =
      (func offset (min (pagePart offset) size) s).andThen
        (coSplitByPagesAndCallback func ((offset + min (pagePart offset) size) % wordSize)
          (size - min (pagePart offset) size)) := by
  obtain ⟨pos, le, -⟩ := partSize_bounds ho hs
  obtain ⟨n, rfl⟩ := Nat.exists_eq_succ_of_ne_zero hs
  rw [coSplitByPagesAndCallback]
  simp only [splitLoop, Nat.succ_eq_add_one, Nat.add_one_ne_zero, if_false]
  generalize min (pagePart offset) (n + 1) = part at pos le
  have next (s : σ) : splitLoop func n ((offset + part) % wordSize) (n + 1 - part) s =
      coSplitByPagesAndCallback func ((offset + part) % wordSize) (n + 1 - part) s :=
    splitLoop_fuel (by omega) s (Nat.mod_lt _ (by decide))
  simp only [Step.andThen, next]

/-- A range inside one page is one call of the callback. -/
theorem coSplit_onePage {offset size : Nat} (s : σ) (ho : offset < wordSize) (hs : size ≠ 0)
    (h : offset % 4096 + size ≤ 4096) :
    coSplitByPagesAndCallback func offset size s = func offset size s := by
  have part : min (pagePart offset) size = size := by
    rw [pagePart_eq ho]
    exact Nat.min_eq_right (by omega)
  rw [coSplit_turn s ho hs, part, Nat.sub_self]
  by_cases hr : (func offset size s).1 = .ok
  · rw [Step.andThen_of_ok hr, coSplit_zero, ← hr]
  · rw [Step.andThen_of_ne hr]

/-- A property of the position and the state that every part carries forward when it succeeds
holds at the end of the range when the whole walk succeeds, and a property that every part
establishes when it fails holds when the walk fails. -/
theorem coSplit_rule {P : Nat → σ → Prop} {Q : σ → Prop} {offset size : Nat}
    (callback : ∀ o n s, offset ≤ o → o + n ≤ offset + size → 0 < n → o % 4096 + n ≤ 4096 →
      P o s → ((func o n s).1 = .ok → P (o + n) (func o n s).2) ∧
        ((func o n s).1 ≠ .ok → Q (func o n s).2))
    (range : offset + size ≤ wordSize) {s : σ} (start : P offset s) :
    ((coSplitByPagesAndCallback func offset size s).1 = .ok →
      P (offset + size) (coSplitByPagesAndCallback func offset size s).2) ∧
    ((coSplitByPagesAndCallback func offset size s).1 ≠ .ok →
      Q (coSplitByPagesAndCallback func offset size s).2) := by
  induction size using Nat.strongRecOn generalizing offset s with
  | _ size ih =>
    by_cases hs : size = 0
    · subst hs; simpa using start
    have ho : offset < wordSize := by omega
    obtain ⟨pos, le, inPage⟩ := partSize_bounds ho hs
    rw [coSplit_turn s ho hs]
    generalize min (pagePart offset) size = part at pos le inPage
    obtain ⟨onOk, onFail⟩ :=
      callback offset part s (Nat.le_refl _) (by omega) pos inPage start
    by_cases hr : (func offset part s).1 = .ok
    · rw [Step.andThen_of_ok hr]
      have next := onOk hr
      by_cases done : part = size
      · subst done
        simpa using next
      · have rest := @ih (size - part) (by omega) (offset + part)
          (fun o n s h1 h2 h3 h4 => callback o n s (by omega) (by omega) h3 h4) (by omega) _ next
        rw [Nat.mod_eq_of_lt (by omega)]
        rwa [show offset + part + (size - part) = offset + size by omega] at rest
    · rw [Step.andThen_of_ne hr]
      exact ⟨fun h => absurd h hr, fun _ => onFail hr⟩

/-- A walk none of whose parts fails. -/
theorem coSplit_succeeds {P : Nat → σ → Prop} {offset size : Nat}
    (callback : ∀ o n s, offset ≤ o → o + n ≤ offset + size → 0 < n → o % 4096 + n ≤ 4096 →
      P o s → (func o n s).1 = .ok ∧ P (o + n) (func o n s).2)
    (range : offset + size ≤ wordSize) {s : σ} (start : P offset s) :
    (coSplitByPagesAndCallback func offset size s).1 = .ok ∧
      P (offset + size) (coSplitByPagesAndCallback func offset size s).2 := by
  obtain ⟨onOk, onFail⟩ := coSplit_rule (P := P) (Q := fun _ => False)
    (fun o n s lo up pos inPage h => by
      obtain ⟨ok, next⟩ := callback o n s lo up pos inPage h
      exact ⟨fun _ => next, fun failed => failed ok⟩) range start
  have ok : (coSplitByPagesAndCallback func offset size s).1 = .ok := by
    by_contra failed
    exact onFail failed
  exact ⟨ok, onOk ok⟩

/-- The walk over a range that starts at a page. Every turn is one page, the last one perhaps not
to its end, and `P` counts the pages that are left. -/
theorem coSplit_pages {P : Nat → Nat → σ → Prop} {Q : σ → Prop} {offset size left : Nat}
    (callback : ∀ k o n s, o % 4096 = 0 → offset ≤ o → o + n ≤ offset + size → 0 < n → n ≤ 4096 →
      P (k + 1) o s → ((func o n s).1 = .ok → P k (o + 4096) (func o n s).2) ∧
        ((func o n s).1 ≠ .ok → Q (func o n s).2))
    (aligned : offset % 4096 = 0) (range : offset + size ≤ wordSize) {s : σ}
    (start : P (left + (size + 4095) / 4096) offset s) :
    ((coSplitByPagesAndCallback func offset size s).1 = .ok →
      P left (offset + (size + 4095) / 4096 * 4096)
        (coSplitByPagesAndCallback func offset size s).2) ∧
    ((coSplitByPagesAndCallback func offset size s).1 ≠ .ok →
      Q (coSplitByPagesAndCallback func offset size s).2) := by
  induction size using Nat.strongRecOn generalizing offset s with
  | ind size ih =>
    by_cases hs : size = 0
    · subst hs
      simpa using start
    have ho : offset < wordSize := by omega
    have part : min (pagePart offset) size = min 4096 size := by
      rw [pagePart_eq ho, aligned, Nat.sub_zero]
    have pages : (size + 4095) / 4096 = (size - min 4096 size + 4095) / 4096 + 1 := by omega
    rw [coSplit_turn s ho hs, part]
    rw [pages, ← Nat.add_assoc] at start
    obtain ⟨onOk, onFail⟩ := callback _ offset (min 4096 size) s aligned (Nat.le_refl _) (by omega)
      (by omega) (by omega) start
    by_cases hr : (func offset (min 4096 size) s).1 = .ok
    · rw [Step.andThen_of_ok hr]
      have next := onOk hr
      by_cases last : size ≤ 4096
      · rw [Nat.min_eq_right last, Nat.sub_self] at next ⊢
        rw [show (size + 4095) / 4096 = 1 by omega]
        simpa using next
      · rw [Nat.min_eq_left (by omega)] at next ⊢
        have rest := @ih (size - 4096) (by omega) (offset + 4096)
          (fun k o n s h0 h1 h2 h3 h4 => callback k o n s h0 (by omega) (by omega) h3 h4)
          (by omega) (by omega) _ next
        rw [Nat.mod_eq_of_lt (by omega)]
        rwa [show offset + 4096 + (size - 4096 + 4095) / 4096 * 4096 =
          offset + (size + 4095) / 4096 * 4096 by omega] at rest
    · rw [Step.andThen_of_ne hr]
      exact ⟨fun h => absurd h hr, fun _ => onFail hr⟩

/-- What every part relates its states by, the walk does, wherever it stops. -/
theorem coSplit_rel {R : σ → σ → Prop} (refl : ∀ s, R s s)
    (trans : ∀ s s' s'', R s s' → R s' s'' → R s s'')
    (callback : ∀ o n s, o < wordSize → R s (func o n s).2) {offset size : Nat}
    (ho : offset < wordSize) (s : σ) : R s (coSplitByPagesAndCallback func offset size s).2 := by
  induction size using Nat.strongRecOn generalizing offset s with
  | ind size ih =>
    by_cases hs : size = 0
    · subst hs
      exact refl s
    obtain ⟨pos, le, -⟩ := partSize_bounds ho hs
    rw [coSplit_turn s ho hs]
    by_cases hr : (func offset (min (pagePart offset) size) s).1 = .ok
    · rw [Step.andThen_of_ok hr]
      exact trans _ _ _ (callback _ _ _ ho) (ih _ (by omega) (Nat.mod_lt _ (by decide)) _)
    · rw [Step.andThen_of_ne hr]
      exact callback _ _ _ ho

end CoLinux
