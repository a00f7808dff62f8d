import Mathlib.Data.List.Nodup
import Mathlib.Logic.Function.Basic

/-!
# Units in the slots of a table

Units are stored one after the other. A unit that the table holds is left where it is. Another one
goes to a slot, whatever is in it, or nowhere. Every unit is then in exactly one slot, and no slot
was written twice, if the table held no unit twice and every other unit went to a free slot.
-/

namespace CoLinux.Lib

/-- The unit in each slot. -/
abbrev SlotTable (σ υ : Type) := σ → Option υ

namespace SlotTable

variable {σ υ : Type} [DecidableEq σ] {t t' : SlotTable σ υ} {us : List υ} {ws : List σ}

/-- The unit is in some slot. -/
def Holds (t : SlotTable σ υ) (u : υ) : Prop := ∃ s, t s = some u

/-- No unit is in two slots. -/
def Single (t : SlotTable σ υ) : Prop := ∀ s s' u, t s = some u → t s' = some u → s = s'

/-- `ws` are the slots that are written when the units `us` are stored in `t`, and `t'` is the table
then. -/
inductive Stores : SlotTable σ υ → List υ → List σ → SlotTable σ υ → Prop
  | nil (t : SlotTable σ υ) : Stores t [] [] t
  | held {t t' : SlotTable σ υ} {u : υ} {us : List υ} {ws : List σ} (held : t.Holds u)
      (rest : Stores t us ws t') : Stores t (u :: us) ws t'
  | lost {t t' : SlotTable σ υ} {u : υ} {us : List υ} {ws : List σ} (new : ¬ t.Holds u)
      (rest : Stores t us ws t') : Stores t (u :: us) ws t'
  | stored {t t' : SlotTable σ υ} {u : υ} {us : List υ} {ws : List σ} (s : σ) (new : ¬ t.Holds u)
      (rest : Stores (Function.update t s (some u)) us ws t') : Stores t (u :: us) (s :: ws) t'

/-- As `Stores`, with no unit lost and none stored over another one. -/
inductive Places : SlotTable σ υ → List υ → List σ → SlotTable σ υ → Prop
  | nil (t : SlotTable σ υ) : Places t [] [] t
  | held {t t' : SlotTable σ υ} {u : υ} {us : List υ} {ws : List σ} (held : t.Holds u)
      (rest : Places t us ws t') : Places t (u :: us) ws t'
  | stored {t t' : SlotTable σ υ} {u : υ} {us : List υ} {ws : List σ} (s : σ) (new : ¬ t.Holds u)
      (free : t s = none) (rest : Places (Function.update t s (some u)) us ws t') :
      Places t (u :: us) (s :: ws) t'

theorem update_of_free {s : σ} {u : υ} (free : t s = none) {s' : σ} {v : υ} (h : t s' = some v) :
    Function.update t s (some u) s' = some v := by
  have other : s' ≠ s := by
    rintro rfl
    rw [free] at h
    cases h
  rw [Function.update_of_ne other, h]

theorem places_held {u : υ} (held : t.Holds u) :
    Places t (u :: us) ws t' ↔ Places t us ws t' := by
  constructor
  · intro h
    cases h with
    | held _ rest => exact rest
    | stored s new => exact absurd held new
  · exact .held held

theorem places_new {u : υ} (new : ¬ t.Holds u) :
    Places t (u :: us) ws t' ↔ ∃ s rest, ws = s :: rest ∧ t s = none ∧
      Places (Function.update t s (some u)) us rest t' := by
  constructor
  · intro h
    cases h with
    | held held => exact absurd held new
    | stored s _ free rest => exact ⟨s, _, rfl, free, rest⟩
  · rintro ⟨s, rest, rfl, free, places⟩
    exact .stored s new free places

theorem holds_update {s : σ} {u v : υ} (free : t s = none) :
    Holds (Function.update t s (some u)) v ↔ t.Holds v ∨ v = u := by
  constructor
  · rintro ⟨s', here⟩
    by_cases same : s' = s
    · rw [same, Function.update_self, Option.some.injEq] at here
      exact .inr here.symm
    · rw [Function.update_of_ne same] at here
      exact .inl ⟨s', here⟩
  · rintro (⟨s', here⟩ | rfl)
    · exact ⟨s', update_of_free free here⟩
    · exact ⟨s, Function.update_self ..⟩

/-- Every unit is in exactly one slot, and the written slots were free and are different. -/
structure Exact (t : SlotTable σ υ) (us : List υ) (ws : List σ) (t' : SlotTable σ υ) : Prop where
  once : ∀ u, t.Holds u ∨ u ∈ us → ∃! s, t' s = some u
  nodup : ws.Nodup
  free : ∀ s ∈ ws, t s = none

theorem Stores.holds (h : Stores t us ws t') {u : υ} (held : t'.Holds u) : t.Holds u ∨ u ∈ us := by
  induction h with
  | nil t => exact .inl held
  | held _ _ ih => exact (ih held).imp_right (List.mem_cons_of_mem _)
  | lost _ _ ih => exact (ih held).imp_right (List.mem_cons_of_mem _)
  | @stored t _ v _ _ s _ _ ih =>
    rcases ih held with ⟨s', here⟩ | later
    · by_cases same : s' = s
      · rw [same, Function.update_self, Option.some.injEq] at here
        exact .inr (here ▸ List.mem_cons_self)
      · rw [Function.update_of_ne same] at here
        exact .inl ⟨s', here⟩
    · exact .inr (List.mem_cons_of_mem _ later)

/-- What is in the table stays where it is. -/
theorem Places.keeps (h : Places t us ws t') {s : σ} {u : υ} (here : t s = some u) :
    t' s = some u := by
  induction h with
  | nil => exact here
  | held _ _ ih => exact ih here
  | stored _ _ free _ ih => exact ih (update_of_free free here)

theorem Places.holds (h : Places t us ws t') : ∀ u ∈ us, t'.Holds u := by
  induction h with
  | nil => exact fun u mem => absurd mem List.not_mem_nil
  | held held rest ih =>
    obtain ⟨s, here⟩ := held
    exact List.forall_mem_cons.mpr ⟨⟨s, rest.keeps here⟩, ih⟩
  | stored s _ _ rest ih =>
    exact List.forall_mem_cons.mpr ⟨⟨s, rest.keeps (Function.update_self ..)⟩, ih⟩

theorem Places.single (h : Places t us ws t') (single : t.Single) : t'.Single := by
  induction h with
  | nil => exact single
  | held _ _ ih => exact ih single
  | @stored t _ u _ _ s new _ _ ih =>
    apply ih
    intro a b v ha hb
    by_cases first : a = s
    · subst first
      rw [Function.update_self, Option.some.injEq] at ha
      by_contra other
      rw [Function.update_of_ne (Ne.symm other)] at hb
      exact new ⟨b, ha ▸ hb⟩
    · rw [Function.update_of_ne first] at ha
      by_cases second : b = s
      · subst second
        rw [Function.update_self, Option.some.injEq] at hb
        exact absurd ⟨a, hb ▸ ha⟩ new
      · rw [Function.update_of_ne second] at hb
        exact single a b v ha hb

theorem Places.written (h : Places t us ws t') : ws.Nodup ∧ ∀ s ∈ ws, t s = none := by
  induction h with
  | nil => exact ⟨List.nodup_nil, fun s mem => absurd mem List.not_mem_nil⟩
  | held _ _ ih => exact ih
  | @stored t _ u _ ws s _ free _ ih =>
    obtain ⟨nodup, others⟩ := ih
    have new : s ∉ ws := by
      intro mem
      have := others s mem
      rw [Function.update_self] at this
      cases this
    refine ⟨List.nodup_cons.mpr ⟨new, nodup⟩, List.forall_mem_cons.mpr ⟨free, fun s' mem => ?_⟩⟩
    have other : s' ≠ s := by
      rintro rfl
      exact new mem
    rw [← others s' mem, Function.update_of_ne other]

/-- With every unit in the table at the end, nothing was lost. -/
theorem Stores.places (h : Stores t us ws t') (distinct : us.Nodup) (all : ∀ u ∈ us, t'.Holds u)
    (nodup : ws.Nodup) (free : ∀ s ∈ ws, t s = none) : Places t us ws t' := by
  induction h with
  | nil t => exact .nil t
  | held held _ ih =>
    rw [List.nodup_cons] at distinct
    rw [List.forall_mem_cons] at all
    exact .held held (ih distinct.2 all.2 nodup free)
  | lost new rest ih =>
    rw [List.nodup_cons] at distinct
    rw [List.forall_mem_cons] at all
    rcases rest.holds all.1 with held | later
    · exact absurd held new
    · exact absurd later distinct.1
  | stored s new _ ih =>
    rw [List.nodup_cons] at distinct nodup
    rw [List.forall_mem_cons] at all free
    refine .stored s new free.1 (ih distinct.2 all.2 nodup.2 fun s' mem => ?_)
    have other : s' ≠ s := by
      rintro rfl
      exact nodup.1 mem
    rw [Function.update_of_ne other]
    exact free.2 s' mem

theorem Stores.exact_iff (h : Stores t us ws t') (distinct : us.Nodup) :
    Exact t us ws t' ↔ t.Single ∧ Places t us ws t' := by
  constructor
  · rintro ⟨once, nodup, free⟩
    have places := h.places distinct (fun u mem => (once u (.inr mem)).exists) nodup free
    refine ⟨fun s s' u here there => ?_, places⟩
    exact (once u (.inl ⟨s, here⟩)).unique (places.keeps here) (places.keeps there)
  · rintro ⟨single, places⟩
    obtain ⟨nodup, free⟩ := places.written
    refine ⟨fun u wanted => ?_, nodup, free⟩
    have held : t'.Holds u := by
      rcases wanted with ⟨s, here⟩ | mem
      · exact ⟨s, places.keeps here⟩
      · exact places.holds u mem
    obtain ⟨s, here⟩ := held
    exact ⟨s, here, fun s' there => places.single single s' s u there here⟩

end SlotTable

end CoLinux.Lib
