import Mathlib.Data.List.Basic
/-!
# Paths as texts

A path is made of components with a separator before each. Cut at the separators it gives the
components, and those that have separators in them are cut too. Two paths are the same text if they
are cut into the same pieces, and a path stays below its beginning if its pieces never lead above
it.
-/

namespace CoLinux.Lib.PathText

variable {α : Type} (sep : α)

/-- The components with a separator before each. -/
def join (components : List (List α)) : List α := components.flatMap (sep :: ·)

theorem join_cons (c : List α) (cs : List (List α)) :
    join sep (c :: cs) = sep :: c ++ join sep cs :=
  List.flatMap_cons

theorem join_append (cs ds : List (List α)) : join sep (cs ++ ds) = join sep cs ++ join sep ds :=
  List.flatMap_append

theorem length_le_join (cs : List (List α)) : cs.length ≤ (join sep cs).length := by
  induction cs with
  | nil => exact Nat.le_refl 0
  | cons c cs ih =>
    rw [join_cons, List.length_append, List.length_cons, List.length_cons]
    omega

variable [DecidableEq α]

/-- The pieces of a text between its separators. -/
def cut : List α → List (List α)
  | [] => [[]]
  | c :: s =>
    if c = sep then [] :: cut s
    else
      match cut s with
      | [] => [[c]]
      | piece :: pieces => (c :: piece) :: pieces

/-- The pieces of all components. -/
def pieces (components : List (List α)) : List (List α) := components.flatMap (cut sep)

/-- A text with a component behind it: a separator comes between them, unless the text is empty or
ends with one. -/
def addComponent (path name : List α) : List α :=
  if path ≠ [] ∧ path.getLast? ≠ some sep then path ++ sep :: name else path ++ name

/-- No piece leads above the place where the path begins: `up` leads to the parent, the empty piece
and `here` lead nowhere, and every other one leads down. -/
def StaysBelow (up here : List α) : Nat → List (List α) → Prop
  | _, [] => True
  | depth, piece :: pieces =>
    if piece = up then 0 < depth ∧ StaysBelow up here (depth - 1) pieces
    else if piece = [] ∨ piece = here then StaysBelow up here depth pieces
    else StaysBelow up here (depth + 1) pieces

theorem cut_ne_nil (s : List α) : cut sep s ≠ [] := by
  cases s with
  | nil => exact List.cons_ne_nil _ _
  | cons c s =>
    rw [cut]
    split
    · exact List.cons_ne_nil _ _
    · split <;> exact List.cons_ne_nil _ _

theorem cut_append (s t : List α) : cut sep (s ++ sep :: t) = cut sep s ++ cut sep t := by
  induction s with
  | nil =>
    simp [cut]
  | cons c s ih =>
    rw [List.cons_append, cut, cut, ih]
    split
    · rfl
    · cases h : cut sep s with
      | nil => exact absurd h (cut_ne_nil sep s)
      | cons piece pieces => rfl

theorem cut_append_join (s : List α) (cs : List (List α)) :
    cut sep (s ++ join sep cs) = cut sep s ++ pieces sep cs := by
  induction cs generalizing s with
  | nil => simp [join, pieces]
  | cons c cs ih =>
    rw [join_cons, List.cons_append, cut_append, ih, pieces, pieces, List.flatMap_cons]

theorem cut_join (cs : List (List α)) : cut sep (join sep cs) = [] :: pieces sep cs :=
  cut_append_join sep [] cs

theorem pieces_append (cs ds : List (List α)) :
    pieces sep (cs ++ ds) = pieces sep cs ++ pieces sep ds :=
  List.flatMap_append

theorem cut_of_notMem {s : List α} (plain : sep ∉ s) : cut sep s = [s] := by
  induction s with
  | nil => rfl
  | cons c s ih =>
    obtain ⟨head, tail⟩ := not_or.mp (List.mem_cons.not.mp plain)
    rw [cut, if_neg fun same => head same.symm, ih tail]

theorem pieces_of_notMem {cs : List (List α)} (plain : ∀ c ∈ cs, sep ∉ c) : pieces sep cs = cs := by
  induction cs with
  | nil => rfl
  | cons c cs ih =>
    rw [pieces, List.flatMap_cons, cut_of_notMem sep (plain c List.mem_cons_self)]
    exact congrArg (c :: ·) (ih fun d mem => plain d (List.mem_cons_of_mem c mem))

/-- The text between which the separators were. -/
def uncut : List (List α) → List α
  | [] => []
  | [piece] => piece
  | piece :: next :: pieces => piece ++ sep :: uncut (next :: pieces)

theorem uncut_cut (s : List α) : uncut sep (cut sep s) = s := by
  induction s with
  | nil => rfl
  | cons c s ih =>
    rw [cut]
    cases h : cut sep s with
    | nil => exact absurd h (cut_ne_nil sep s)
    | cons piece pieces =>
      rw [h] at ih
      split
      · next same =>
        subst same
        rw [uncut, ih]
        rfl
      · cases pieces with
        | nil =>
          rw [uncut] at ih
          rw [← ih]
          rfl
        | cons next pieces =>
          rw [uncut] at ih
          rw [← ih]
          rfl

theorem cut_injective {s t : List α} (h : cut sep s = cut sep t) : s = t := by
  rw [← uncut_cut sep s, h, uncut_cut]

/-- Two paths are the same if their pieces are. -/
theorem join_eq_iff {cs ds : List (List α)} :
    join sep cs = join sep ds ↔ pieces sep cs = pieces sep ds := by
  constructor
  · intro same
    have cuts := congrArg (cut sep) same
    rw [cut_join, cut_join] at cuts
    exact (List.cons.inj cuts).2
  · intro same
    apply cut_injective sep
    rw [cut_join, cut_join, same]

/-! ## Staying below -/

section Below

variable {up here : List α} {depth : Nat}

theorem StaysBelow.left {xs ys : List (List α)} (below : StaysBelow up here depth (xs ++ ys)) :
    StaysBelow up here depth xs := by
  induction xs generalizing depth with
  | nil => trivial
  | cons x xs ih =>
    rw [List.cons_append, StaysBelow] at below
    rw [StaysBelow]
    by_cases leads : x = up
    · rw [if_pos leads] at below ⊢
      exact ⟨below.1, ih below.2⟩
    · rw [if_neg leads] at below ⊢
      by_cases nowhere : x = [] ∨ x = here
      · rw [if_pos nowhere] at below ⊢
        exact ih below
      · rw [if_neg nowhere] at below ⊢
        exact ih below

variable (here depth) in
/-- Empty pieces lead nowhere. -/
theorem staysBelow_append_nil (leads : up ≠ []) (xs ys : List (List α)) :
    StaysBelow up here depth (xs ++ [] :: ys) ↔ StaysBelow up here depth (xs ++ ys) := by
  induction xs generalizing depth with
  | nil =>
    rw [List.nil_append, StaysBelow, if_neg leads.symm, if_pos (Or.inl rfl), List.nil_append]
  | cons x xs ih =>
    rw [List.cons_append, List.cons_append, StaysBelow, StaysBelow, ih, ih, ih]

theorem staysBelow_of_notMem {xs : List (List α)} (plain : up ∉ xs) :
    StaysBelow up here depth xs := by
  induction xs generalizing depth with
  | nil => trivial
  | cons x xs ih =>
    obtain ⟨head, tail⟩ := not_or.mp (List.mem_cons.not.mp plain)
    rw [StaysBelow, if_neg fun same => head same.symm]
    split
    · exact ih tail
    · exact ih tail

theorem staysBelow_join (leads : up ≠ []) (cs : List (List α)) :
    StaysBelow up here depth (cut sep (join sep cs)) ↔
      StaysBelow up here depth (pieces sep cs) := by
  rw [cut_join]
  exact staysBelow_append_nil here depth leads [] _

variable {sep} (here depth) in
/-- A component behind a path that ends with a separator. -/
theorem staysBelow_concat (leads : up ≠ []) {cs : List (List α)} {front : List α}
    (ends : join sep cs = front ++ [sep]) (name : List α) :
    StaysBelow up here depth (cut sep (join sep cs ++ name)) ↔
      StaysBelow up here depth (pieces sep cs ++ cut sep name) := by
  have cuts : [] :: pieces sep cs = cut sep front ++ [[]] := by
    rw [← cut_join, ends, cut_append]
    rfl
  have trailing := staysBelow_append_nil here depth leads (cut sep front) (cut sep name)
  have leading := staysBelow_append_nil here depth leads [] (pieces sep cs ++ cut sep name)
  rw [List.nil_append, List.nil_append, ← List.cons_append, cuts, List.append_assoc,
    List.singleton_append] at leading
  rw [ends, List.append_assoc, List.singleton_append, cut_append]
  exact trailing.symm.trans leading

variable (here depth) in
/-- With or without a separator a component behind a path leads to the same place. -/
theorem staysBelow_addComponent (leads : up ≠ []) (base : List α) (cs : List (List α))
    (name : List α) : ∃ rest, addComponent sep (base ++ join sep cs) name = base ++ rest ∧
      (StaysBelow up here depth (cut sep rest) ↔
        StaysBelow up here depth (pieces sep (cs ++ [name]))) := by
  have one : pieces sep [name] = cut sep name := List.append_nil _
  rw [addComponent]
  split
  · refine ⟨join sep (cs ++ [name]), ?_, staysBelow_join sep leads _⟩
    have last : join sep [name] = sep :: name := List.append_nil _
    rw [join_append, last, List.append_assoc]
  · next plain =>
    refine ⟨join sep cs ++ name, List.append_assoc _ _ _, ?_⟩
    rw [pieces_append, one]
    rcases List.eq_nil_or_concat (join sep cs) with empty | ⟨front, last, ends⟩
    · have none : cs = [] := by
        have short := length_le_join sep cs
        rw [empty] at short
        exact List.eq_nil_of_length_eq_zero (Nat.le_zero.mp short)
      rw [none]
      exact Iff.rfl
    · rw [List.concat_eq_append] at ends
      have lastSep : last = sep := by
        by_contra other
        apply plain
        rw [ends, ← List.append_assoc, List.getLast?_concat]
        exact ⟨List.append_ne_nil_of_right_ne_nil _ (List.cons_ne_nil _ _),
          fun same => other (Option.some.inj same)⟩
      rw [lastSep] at ends
      exact staysBelow_concat here depth leads ends name

end Below

end CoLinux.Lib.PathText
