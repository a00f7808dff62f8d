import CoLinux.Lib.Numeral

/-!
# Numbers as they are written

The text that a scan for a decimal number takes, by its parts: blanks, a sign and digits, or nothing
at all. `readNumber` takes these parts from the beginning of a text. There is only one way to do so,
and `strtol` goes by it.
-/

namespace CoLinux.Lib

variable {α : Type} (code : α → Nat)

/-- What is taken for a number. -/
structure NumberText (α : Type) where
  blanks : List α
  sign : Option α
  digits : List α

namespace NumberText

def text (n : NumberText α) : List α := n.blanks ++ (n.sign.toList ++ n.digits)

/-- Its value; nothing stands for 0. -/
def value (n : NumberText α) : Int :=
  if n.sign.any (code · = 45) then -(numeral code 10 n.digits : Int) else numeral code 10 n.digits

structure Written (n : NumberText α) : Prop where
  blanks : ∀ c ∈ n.blanks, isBlank code c = true
  sign : ∀ c ∈ n.sign, code c = 45 ∨ code c = 43
  digits : ∀ c ∈ n.digits, isDigitOf code 10 c = true
  nothing : n.digits = [] → n.text = []

/-- There are digits and nothing else. -/
def Plain (n : NumberText α) : Prop := n.digits ≠ [] ∧ n.text = n.digits

end NumberText

/-- The text begins with a number. -/
def BeginsNumber (s : List α) : Prop :=
  ∃ (n : NumberText α) (rest : List α), n.Written code ∧ n.digits ≠ [] ∧ s = n.text ++ rest

/-- A number is taken up to `rest`, and no further. -/
structure NumberText.EndsBefore (n : NumberText α) (rest : List α) : Prop where
  digits : n.digits ≠ [] → ∀ c ∈ rest.head?, isDigitOf code 10 c = false
  nothing : n.digits = [] → ¬ BeginsNumber code rest

/-- A character no number has. -/
def Stops (c : α) : Prop :=
  isBlank code c = false ∧ code c ≠ 45 ∧ code c ≠ 43 ∧ isDigitOf code 10 c = false

def signOf : List α → Option α × List α
  | [] => (none, [])
  | c :: s => if code c = 45 ∨ code c = 43 then (some c, s) else (none, c :: s)

/-- The number at the beginning of a text, and what follows it. -/
def readNumber (s : List α) : NumberText α × List α :=
  let signed := signOf code (s.dropWhile (isBlank code))
  if signed.2.takeWhile (isDigitOf code 10) = [] then (⟨[], none, []⟩, s)
  else (⟨s.takeWhile (isBlank code), signed.1, signed.2.takeWhile (isDigitOf code 10)⟩,
    signed.2.dropWhile (isDigitOf code 10))

section Lemmas

variable {code}

/-! ## Texts of one kind of character -/

theorem takeWhile_append_stop {p : α → Bool} {w rest : List α} (all : ∀ c ∈ w, p c = true)
    (stop : ∀ c ∈ rest.head?, p c = false) :
    (w ++ rest).takeWhile p = w ∧ (w ++ rest).dropWhile p = rest := by
  rw [List.takeWhile_append_of_pos all, List.dropWhile_append_of_pos all]
  cases rest with
  | nil => exact ⟨List.append_nil w, rfl⟩
  | cons c rest =>
    have fails : ¬ p c = true := by simp [stop c rfl]
    rw [List.takeWhile_cons_of_neg fails, List.dropWhile_cons_of_neg fails, List.append_nil]
    exact ⟨rfl, rfl⟩

theorem head?_dropWhile_stop (p : α → Bool) (s : List α) :
    ∀ c ∈ (s.dropWhile p).head?, p c = false := by
  induction s with
  | nil => exact fun c mem => absurd mem (Option.not_mem_none c)
  | cons a s ih =>
    intro c mem
    by_cases pa : p a = true
    · rw [List.dropWhile_cons_of_pos pa] at mem
      exact ih c mem
    · rw [List.dropWhile_cons_of_neg pa] at mem
      obtain rfl : a = c := Option.some.inj mem
      exact Bool.not_eq_true _ ▸ pa

theorem isBlank_eq_false {c : α} (h : code c = 45 ∨ code c = 43 ∨ 48 ≤ code c ∧ code c ≤ 57) :
    isBlank code c = false := by
  unfold isBlank
  simp only [Bool.or_eq_false_iff, decide_eq_false_iff_not, Bool.and_eq_false_iff]
  omega

/-! ## Signs -/

theorem signOf_append (s : List α) : (signOf code s).1.toList ++ (signOf code s).2 = s := by
  cases s with
  | nil => rfl
  | cons c s =>
    rw [signOf]
    split <;> rfl

theorem signOf_sign (s : List α) : ∀ c ∈ (signOf code s).1, code c = 45 ∨ code c = 43 := by
  cases s with
  | nil => exact fun c mem => absurd mem (Option.not_mem_none c)
  | cons a s =>
    rw [signOf]
    split
    · rename_i sign
      rintro c mem
      obtain rfl : a = c := Option.some.inj mem
      exact sign
    · exact fun c mem => absurd mem (Option.not_mem_none c)

theorem signOf_text {sign : Option α} {s : List α} (h : ∀ c ∈ sign, code c = 45 ∨ code c = 43)
    (digit : sign = none → ∀ c ∈ s.head?, 48 ≤ code c) :
    signOf code (sign.toList ++ s) = (sign, s) := by
  cases sign with
  | some c => exact if_pos (h c rfl)
  | none =>
    cases s with
    | nil => rfl
    | cons c s =>
      have := digit rfl c rfl
      exact if_neg (by omega)

theorem takeSign_signOf (s : List α) :
    takeSign code s = ((signOf code s).1.any (code · = 45), (signOf code s).2) := by
  cases s with
  | nil => rfl
  | cons c s =>
    rw [takeSign, signOf]
    by_cases minus : code c = 45
    · simp [minus]
    · by_cases plus : code c = 43
      · simp [plus]
      · simp [minus, plus]

/-! ## The one way to read a number -/

theorem NumberText.Written.head_digits {n : NumberText α} (h : n.Written code) (rest : List α)
    (some : n.digits ≠ []) : ∀ c ∈ (n.digits ++ rest).head?, 48 ≤ code c ∧ code c ≤ 57 := by
  cases digits : n.digits with
  | nil => exact absurd digits some
  | cons d ds =>
    intro c mem
    obtain rfl : d = c := Option.some.inj mem
    exact isDigitOf_ten (h.digits d (digits ▸ List.mem_cons_self))

theorem readNumber_digits {n : NumberText α} {rest : List α} (h : n.Written code)
    (some : n.digits ≠ []) (ends : ∀ c ∈ rest.head?, isDigitOf code 10 c = false) :
    readNumber code (n.text ++ rest) = (n, rest) := by
  have digits := takeWhile_append_stop h.digits ends
  have front : ∀ c ∈ (n.sign.toList ++ (n.digits ++ rest)).head?, isBlank code c = false := by
    intro c mem
    apply isBlank_eq_false
    cases sign : n.sign with
    | none =>
      rw [sign] at mem
      exact .inr (.inr (h.head_digits rest some c mem))
    | some d =>
      rw [sign] at mem
      obtain rfl : d = c := Option.some.inj mem
      exact (h.sign d sign).imp_right .inl
  have blanks := takeWhile_append_stop h.blanks front
  have sign : signOf code (n.sign.toList ++ (n.digits ++ rest)) = (n.sign, n.digits ++ rest) :=
    signOf_text h.sign fun _ c mem => (h.head_digits rest some c mem).1
  rw [readNumber, NumberText.text, List.append_assoc, List.append_assoc, blanks.1, blanks.2, sign]
  dsimp only
  rw [digits.1, digits.2, if_neg some]

/-- What is read is there, as far as it goes. -/
theorem readNumber_found {s : List α} (some : (readNumber code s).1.digits ≠ []) :
    (readNumber code s).1.Written code ∧
      (∀ c ∈ (readNumber code s).2.head?, isDigitOf code 10 c = false) ∧
        (readNumber code s).1.text ++ (readNumber code s).2 = s := by
  unfold readNumber at some ⊢
  by_cases none : (signOf code (s.dropWhile (isBlank code))).2.takeWhile (isDigitOf code 10) = []
  · exact absurd (congrArg (fun r : NumberText α × List α => r.1.digits) (if_pos none)) some
  · simp only [if_neg none] at some ⊢
    refine ⟨⟨fun c mem => List.mem_takeWhile_imp mem, signOf_sign _,
      fun c mem => List.mem_takeWhile_imp mem, fun empty => absurd empty none⟩,
      head?_dropWhile_stop _ _, ?_⟩
    rw [NumberText.text, List.append_assoc, List.append_assoc, List.takeWhile_append_dropWhile,
      signOf_append, List.takeWhile_append_dropWhile]

theorem readNumber_nothing {s : List α} (empty : (readNumber code s).1.digits = []) :
    readNumber code s = (⟨[], none, []⟩, s) := by
  unfold readNumber at empty ⊢
  by_cases noDigit : (signOf code (s.dropWhile (isBlank code))).2.takeWhile (isDigitOf code 10) = []
  · exact if_pos noDigit
  · simp only [if_neg noDigit] at empty
    exact absurd empty noDigit

/-- The digits that follow a number belong to it. -/
theorem NumberText.Written.extend {n : NumberText α} (h : n.Written code) (some : n.digits ≠ [])
    (rest : List α) :
    ∃ m : NumberText α, m.Written code ∧ m.digits ≠ [] ∧
      n.text ++ rest = m.text ++ rest.dropWhile (isDigitOf code 10) := by
  have more : n.digits ++ rest.takeWhile (isDigitOf code 10) ≠ [] :=
    fun empty => some (List.append_eq_nil_iff.mp empty).1
  refine ⟨{ n with digits := n.digits ++ rest.takeWhile (isDigitOf code 10) },
    ⟨h.blanks, h.sign, fun c mem => ?_, fun empty => absurd empty more⟩, more, ?_⟩
  · rcases List.mem_append.mp mem with mem | mem
    · exact h.digits c mem
    · exact List.mem_takeWhile_imp mem
  · simp only [NumberText.text, List.append_assoc, List.takeWhile_append_dropWhile]

theorem beginsNumber_iff {s : List α} :
    BeginsNumber code s ↔ (readNumber code s).1.digits ≠ [] := by
  constructor
  · rintro ⟨n, rest, written, some, rfl⟩
    obtain ⟨m, written', some', same⟩ := written.extend some rest
    rw [same, readNumber_digits written' some' (head?_dropWhile_stop _ _)]
    exact some'
  · intro some
    obtain ⟨written, -, text⟩ := readNumber_found some
    exact ⟨_, _, written, some, text.symm⟩

/-- A text is read as it is written. -/
theorem readNumber_text {n : NumberText α} {rest : List α} (written : n.Written code)
    (ends : n.EndsBefore code rest) : readNumber code (n.text ++ rest) = (n, rest) := by
  by_cases empty : n.digits = []
  · have text := written.nothing empty
    have parts : n = ⟨[], none, []⟩ := by
      obtain ⟨blanks, sign, digits⟩ := n
      obtain ⟨noBlanks, later⟩ := List.append_eq_nil_iff.mp text
      obtain ⟨noSign, noDigits⟩ := List.append_eq_nil_iff.mp later
      dsimp only at noBlanks noSign noDigits
      rw [noBlanks, noDigits, Option.toList_eq_nil_iff.mp noSign]
    rw [text, List.nil_append, parts]
    exact readNumber_nothing (not_not.mp fun some => ends.nothing empty (beginsNumber_iff.mpr some))
  · exact readNumber_digits written empty (ends.digits empty)

/-- Every text is written as it is read. -/
theorem readNumber_written (s : List α) :
    (readNumber code s).1.Written code ∧
      (readNumber code s).1.EndsBefore code (readNumber code s).2 ∧
        (readNumber code s).1.text ++ (readNumber code s).2 = s := by
  by_cases empty : (readNumber code s).1.digits = []
  · have none : ¬ BeginsNumber code s := fun begins => beginsNumber_iff.mp begins empty
    rw [readNumber_nothing empty]
    refine ⟨⟨?_, ?_, ?_, fun _ => rfl⟩, ⟨fun some => absurd rfl some, fun _ => none⟩, rfl⟩
    · exact fun c mem => absurd mem List.not_mem_nil
    · exact fun c mem => absurd mem (Option.not_mem_none c)
    · exact fun c mem => absurd mem List.not_mem_nil
  · obtain ⟨written, ends, text⟩ := readNumber_found empty
    exact ⟨written, ⟨fun _ => ends, fun none => absurd none empty⟩, text⟩

theorem not_beginsNumber {rest : List α} (stop : ∀ c ∈ rest.head?, Stops code c) :
    ¬ BeginsNumber code rest := by
  rintro ⟨⟨blanks, sign, digits⟩, later, written, some, rfl⟩
  cases blanks with
  | cons b blanks =>
    exact Bool.false_ne_true ((stop b rfl).1.symm.trans (written.blanks b List.mem_cons_self))
  | nil =>
    cases sign with
    | some c => exact (written.sign c rfl).elim (stop c rfl).2.1 (stop c rfl).2.2.1
    | none =>
      cases digits with
      | nil => exact some rfl
      | cons d digits =>
        exact Bool.false_ne_true
          ((stop d rfl).2.2.2.symm.trans (written.digits d List.mem_cons_self))

theorem NumberText.endsBefore_stop (n : NumberText α) {rest : List α}
    (stop : ∀ c ∈ rest.head?, Stops code c) : n.EndsBefore code rest :=
  ⟨fun _ c mem => (stop c mem).2.2.2, fun _ => not_beginsNumber stop⟩

/-! ## `strtol` -/

/-- The number of a `long` that is nearest. -/
def nearestLong (half : Nat) (v : Int) : Int := max (-half) (min v (half - 1))

theorem scanNumber_readNumber (s : List α) :
    scanNumber code 10 s =
      if (readNumber code s).1.digits = [] then none
      else some ⟨(readNumber code s).1.sign.any (code · = 45),
        numeral code 10 (readNumber code s).1.digits, (readNumber code s).2⟩ := by
  rw [scanNumber, takeSign_signOf, baseOf_of_ne code (by decide : 10 ≠ 0)]
  simp only [(by decide : ¬ 10 = 16), false_and, if_false, scanDigits]
  unfold readNumber
  by_cases empty : (signOf code (s.dropWhile (isBlank code))).2.takeWhile (isDigitOf code 10) = []
  · simp [empty]
  · simp [empty]

theorem strtol_readNumber {half : Nat} (pos : 0 < half) (s : List α) :
    strtol code half 10 s =
      (nearestLong half ((readNumber code s).1.value code), (readNumber code s).2) := by
  rw [strtol, scanNumber_readNumber]
  by_cases empty : (readNumber code s).1.digits = []
  · rw [if_pos empty, readNumber_nothing empty]
    have zero : nearestLong half 0 = 0 := by
      unfold nearestLong
      omega
    exact Prod.ext zero.symm rfl
  · rw [if_neg empty]
    unfold NumberText.value nearestLong
    dsimp only
    split
    · refine Prod.ext ?_ rfl
      dsimp only
      omega
    · refine Prod.ext ?_ rfl
      dsimp only
      omega

end Lemmas

end CoLinux.Lib
