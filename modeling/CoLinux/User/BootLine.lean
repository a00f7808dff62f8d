import CoLinux.Common.Types
import CoLinux.Lib.CText
import Mathlib.Data.List.Basic

/-!
# The kernel command line (`co_cmdline_params_format_remaining_parameters` of `user/cmdline.c`)

What is left of the command line when all options are taken becomes the boot line of the guest's
kernel. It is appended with `co_snprintf`, which truncates.
-/

namespace CoLinux

open Lib ByteMem

/-- `struct co_command_line_params`: the arguments, those that were taken being null. -/
abbrev CommandLine := List (Option CText)

/-- What `co_snprintf` stores before its NUL for `"%s"`, or `" %s"` when `space` is set, in a buffer
of `n` bytes. -/
def coSnprintfStr (n : Nat) (space : Bool) (str : List UInt8) : List UInt8 :=
  let literal : List UInt8 := if space ∧ 1 < n then [32] else []
  literal ++ if n - literal.length ≤ 1 then [] else str.take (n - literal.length - 1)

/-- The output of the formatter: memory from `str_out` on, and the offset behind the last byte it
has stored. -/
structure LineBuffer where
  mem : ByteMem
  extent : Nat

/-- `co_snprintf` at an offset of the output: the NUL is stored if there is room for it. -/
def LineBuffer.snprintf (b : LineBuffer) (at' n : Nat) (space : Bool) (str : List UInt8) :
    LineBuffer :=
  if 0 < n then
    ⟨b.mem.storeText at' (coSnprintfStr n space str),
      max b.extent (at' + (coSnprintfStr n space str).length + 1)⟩
  else b

/-- The loop, with `size` bytes left at the offset `at'`. `co_strlen` of what was printed is its
length, since no argument has a NUL. An argument is taken when it has been printed. -/
def formatArguments : CommandLine → Nat → Nat → LineBuffer → CommandLine × LineBuffer
  | [], _, _, b => ([], b)
  | none :: args, at', size, b =>
    let r := formatArguments args at' size b
    (none :: r.1, r.2)
  | some arg :: args, at', size, b =>
    let space := decide (b.mem 0 ≠ 0)
    let paramSize := if 0 < size then (coSnprintfStr size space arg).length else 0
    let b := b.snprintf at' size space arg
    if size - paramSize = 0 then (some arg :: args, b)
    else
      let r := formatArguments args (at' + paramSize) (size - paramSize) b
      (none :: r.1, r.2)

/-- `co_cmdline_params_format_remaining_parameters`. -/
def coCmdlineParamsFormatRemainingParameters (cmdline : CommandLine) (mem : ByteMem) (size : Nat) :
    Step (CommandLine × LineBuffer) :=
  (.ok, formatArguments cmdline 0 size ⟨mem.storeText 0 [], 1⟩)

/-! ## What the line has to be -/

/-- The remaining arguments. -/
def remaining (cmdline : CommandLine) : List (List UInt8) :=
  cmdline.filterMap fun arg => arg.map Subtype.val

/-- The arguments with single spaces between them. -/
def joinArguments (args : List (List UInt8)) : List UInt8 := [32].intercalate args

/-- The line is all arguments, or an error is returned, and the output is not exceeded. -/
structure LineComplete (cmdline : CommandLine) (size : Nat) (r : Step (CommandLine × LineBuffer)) :
    Prop where
  whole : r.1 = .ok → r.2.2.mem.TextAt 0 (joinArguments (remaining cmdline))
  refused : size ≤ (joinArguments (remaining cmdline)).length → r.1 ≠ .ok
  inside : r.2.2.extent ≤ size

/-! ## The loop -/

theorem coSnprintfStr_eq (n : Nat) (space : Bool) (str : List UInt8) :
    coSnprintfStr n space str = ((if space then [32] else []) ++ str).take (n - 1) := by
  unfold coSnprintfStr
  cases space with
  | false =>
    simp only [Bool.false_eq_true, false_and, if_false, List.nil_append, List.length_nil,
      Nat.sub_zero]
    by_cases room : n ≤ 1
    · rw [if_pos room, show n - 1 = 0 by omega, List.take_zero]
    · rw [if_neg room]
  | true =>
    by_cases room : 1 < n
    · obtain ⟨k, rfl⟩ := Nat.exists_eq_add_of_le room
      simp only [true_and, room, if_true, List.length_singleton]
      rw [show 1 + 1 + k - 1 = k + 1 by omega, List.singleton_append, List.singleton_append,
        List.take_succ_cons, Nat.add_sub_cancel]
      by_cases last : k + 1 ≤ 1
      · rw [if_pos last, show k = 0 by omega, List.take_zero]
      · rw [if_neg last]
    · simp [room, show n - 1 = 0 by omega, show n ≤ 1 by omega]

/-- What the loop appends: a space goes before an argument if something was printed. -/
def appended : Bool → List (List UInt8) → List UInt8
  | _, [] => []
  | space, a :: as => (if space then [32] else []) ++ a ++ appended (space || !a.isEmpty) as

/-- A turn of the loop, in the text that it appends. -/
theorem appended_take {t x a : List UInt8} (as : List (List UInt8)) {n : Nat}
    (hx : ((if !t.isEmpty then [32] else []) ++ a).take n = x) :
    (appended (!t.isEmpty) (a :: as)).take n =
      x ++ (appended (!(t ++ x).isEmpty) as).take (n - x.length) := by
  rw [appended]
  generalize hu : (if !t.isEmpty then [32] else []) ++ a = u at hx
  rw [List.take_append, hx]
  rcases Nat.lt_or_ge n u.length with cut | whole
  · have full : x.length = n := by rw [← hx, List.length_take]; omega
    rw [full, Nat.sub_self, Nat.sub_eq_zero_of_le (Nat.le_of_lt cut), List.take_zero,
      List.take_zero]
  · obtain rfl : u = x := by rw [← hx, List.take_of_length_le whole]
    have flag : (!t.isEmpty || !a.isEmpty) = !(t ++ u).isEmpty := by
      rw [← hu]
      cases t with
      | nil => rfl
      | cons c t => rfl
    rw [flag]

theorem mem_coSnprintfStr {n : Nat} {space : Bool} {str : List UInt8} (noNul : 0 ∉ str) :
    0 ∉ coSnprintfStr n space str := by
  rw [coSnprintfStr_eq]
  intro h
  have h := List.mem_of_mem_take h
  cases space with
  | false => exact noNul h
  | true => exact noNul (by simpa using h)

/-- The loop appends as much as there is room for. -/
theorem formatArguments_spec (args : CommandLine) {size : Nat} {t : List UInt8} {b : LineBuffer}
    (pos : 0 < size) (noNul : 0 ∉ t) (text : b.mem.TextAt 0 t)
    (extent : b.extent ≤ t.length + size) :
    (formatArguments args t.length size b).2.mem.TextAt 0
        (t ++ (appended (!t.isEmpty) (remaining args)).take (size - 1)) ∧
      (formatArguments args t.length size b).2.extent ≤ t.length + size := by
  induction args generalizing size t b with
  | nil =>
    simp only [formatArguments, remaining, List.filterMap_nil, appended, List.take_nil,
      List.append_nil]
    exact ⟨text, extent⟩
  | cons arg args ih =>
    cases arg with
    | none => exact ih pos noNul text extent
    | some arg =>
      have space : decide (b.mem 0 ≠ 0) = !t.isEmpty := by
        rw [Bool.eq_iff_iff]
        simp [text.eq_nil_iff noNul]
      rw [formatArguments]
      simp only [space, if_pos pos, LineBuffer.snprintf]
      generalize hx : coSnprintfStr size (!t.isEmpty) arg.val = x
      have noNulX : 0 ∉ x := hx ▸ mem_coSnprintfStr arg.property
      rw [coSnprintfStr_eq] at hx
      have short : x.length ≤ size - 1 := hx ▸ List.length_take_le _ _
      rw [if_neg (by omega)]
      have grown : (b.mem.storeText t.length x).TextAt 0 (t ++ x) := text.append x
      have noNul' : 0 ∉ t ++ x := by
        rw [List.mem_append, not_or]
        exact ⟨noNul, noNulX⟩
      have next := @ih (size - x.length) (t ++ x)
        ⟨b.mem.storeText t.length x, max b.extent (t.length + x.length + 1)⟩ (by omega) noNul' grown
        (by simp only [List.length_append]; omega)
      rw [List.length_append] at next
      obtain ⟨printed, extent'⟩ := next
      refine ⟨?_, Nat.le_trans extent' (by omega)⟩
      have tail := appended_take (remaining args) hx
      have order : size - x.length - 1 = size - 1 - x.length := by omega
      rw [order, List.append_assoc, ← tail] at printed
      exact printed

/-! ## The line -/

theorem joinArguments_cons (a : List UInt8) (as : List (List UInt8)) :
    joinArguments (a :: as) = a ++ appended true as := by
  induction as generalizing a with
  | nil => simp [joinArguments, appended]
  | cons b as ih =>
    have step : joinArguments (a :: b :: as) = a ++ ([32] ++ joinArguments (b :: as)) := by
      simp [joinArguments, List.intercalate]
    rw [step, ih, appended, Bool.true_or, if_pos rfl, ← List.append_assoc [32]]

theorem appended_true_cons (a : List UInt8) (as : List (List UInt8)) :
    appended true (a :: as) = 32 :: joinArguments (a :: as) := by
  rw [joinArguments_cons, appended, Bool.true_or]
  rfl

theorem appended_false_nil (as : List (List UInt8)) :
    appended false ([] :: as) = appended false as := rfl

theorem appended_length_le (args : List (List UInt8)) :
    (appended false args).length ≤ (joinArguments args).length := by
  induction args with
  | nil => exact Nat.le_refl 0
  | cons a as ih =>
    rw [joinArguments_cons]
    cases a with
    | nil =>
      cases as with
      | nil => exact Nat.le_refl 0
      | cons b as =>
        rw [appended_false_nil, appended_true_cons, List.nil_append]
        exact Nat.le_succ_of_le ih
    | cons c a => exact Nat.le_refl _

/-- The separators are those of the join, unless an empty argument comes first and is not the only
one: no space follows it. -/
theorem appended_eq_join_iff (args : List (List UInt8)) :
    appended false args = joinArguments args ↔ args.length < 2 ∨ args.head? ≠ some [] := by
  cases args with
  | nil => exact iff_of_true rfl (.inl (by decide))
  | cons a as =>
    cases a with
    | cons c a => exact iff_of_true (joinArguments_cons _ as ▸ rfl) (.inr (by simp))
    | nil =>
      cases as with
      | nil => exact iff_of_true rfl (.inl (by decide))
      | cons b as =>
        refine iff_of_false (fun same => ?_) (by simp)
        have le := appended_length_le (b :: as)
        rw [joinArguments_cons, appended_false_nil, List.nil_append, appended_true_cons] at same
        rw [same, List.length_cons] at le
        exact absurd le (Nat.not_succ_le_self _)

theorem not_mem_appended {args : List (List UInt8)} (noNul : ∀ a ∈ args, 0 ∉ a) (space : Bool) :
    0 ∉ appended space args := by
  induction args generalizing space with
  | nil => exact List.not_mem_nil
  | cons a as ih =>
    obtain ⟨first, later⟩ := List.forall_mem_cons.mp noNul
    have separator : 0 ∉ (if space then [32] else [] : List UInt8) := by
      cases space with
      | false => exact List.not_mem_nil
      | true => decide
    rw [appended, List.mem_append, List.mem_append, not_or, not_or]
    exact ⟨⟨separator, first⟩, ih later _⟩

theorem noNul_remaining (cmdline : CommandLine) : ∀ a ∈ remaining cmdline, 0 ∉ a := by
  intro a ha
  obtain ⟨arg, -, h⟩ := List.mem_filterMap.mp ha
  obtain ⟨text, rfl, rfl⟩ := Option.map_eq_some_iff.mp h
  exact text.property

theorem not_mem_joinArguments {args : List (List UInt8)} (noNul : ∀ a ∈ args, 0 ∉ a) :
    0 ∉ joinArguments args := by
  cases args with
  | nil => exact List.not_mem_nil
  | cons a as =>
    obtain ⟨first, later⟩ := List.forall_mem_cons.mp noNul
    rw [joinArguments_cons, List.mem_append, not_or]
    exact ⟨first, not_mem_appended later true⟩

/-- The line is complete if and only if all arguments fit in the output with their spaces and the
NUL, and they do not start with an empty one that others follow. -/
theorem formatRemaining_complete_iff {cmdline : CommandLine} {mem : ByteMem} {size : Nat} :
    LineComplete cmdline size (coCmdlineParamsFormatRemainingParameters cmdline mem size) ↔
      (joinArguments (remaining cmdline)).length < size ∧
        ((remaining cmdline).length < 2 ∨ (remaining cmdline).head? ≠ some []) := by
  rw [← appended_eq_join_iff]
  have spec (pos : 0 < size) := @formatArguments_spec cmdline size [] ⟨mem.storeText 0 [], 1⟩ pos
    List.not_mem_nil (mem.textAt_storeText 0 []) (by simp only [List.length_nil]; omega)
  simp only [List.isEmpty_nil, Bool.not_true, List.length_nil, List.nil_append,
    Nat.zero_add] at spec
  constructor
  · rintro ⟨whole, refused, -⟩
    have fits : (joinArguments (remaining cmdline)).length < size :=
      Nat.lt_of_not_le fun large => refused large rfl
    obtain ⟨printed, -⟩ := spec (by omega)
    have le := appended_length_le (remaining cmdline)
    rw [List.take_of_length_le (by omega)] at printed
    have noNul := noNul_remaining cmdline
    exact ⟨fits, printed.unique (whole rfl) (not_mem_appended noNul false)
      (not_mem_joinArguments noNul)⟩
  · rintro ⟨fits, same⟩
    obtain ⟨printed, extent⟩ := spec (by omega)
    rw [same, List.take_of_length_le (by omega)] at printed
    exact ⟨fun _ => printed, fun large => absurd fits (by omega), extent⟩

/-- An argument of 255 bytes. -/
def longArgument : CText :=
  ⟨List.replicate 255 97, fun h => absurd (List.mem_replicate.mp h).2 (by decide)⟩

/-- `CO_BOOTPARAM_STRING_LENGTH` bytes have no room for a second argument: it is cut off, and the
call returns OK. -/
theorem formatRemaining_truncates :
    (coCmdlineParamsFormatRemainingParameters [some longArgument, some longArgument] (fun _ => 0)
        0x100).1 = .ok ∧
      ¬ LineComplete [some longArgument, some longArgument] 0x100
        (coCmdlineParamsFormatRemainingParameters [some longArgument, some longArgument]
          (fun _ => 0) 0x100) := by
  refine ⟨rfl, fun complete => complete.refused ?_ rfl⟩
  decide +kernel

end CoLinux
