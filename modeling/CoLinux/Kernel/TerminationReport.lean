import CoLinux.Kernel.Termination
import Mathlib.Data.Nat.Init

/-!
# Which termination reports are taken within the page

The texts that the guest's own functions place are stored as they should be. What is read depends
on the length word, which is only bounded in one of the two reports.
-/

namespace CoLinux

open Lib

variable {m : ByteMem} {page : Nat}

/-! ## Strings in memory -/

/-- The string at `a` has `n` bytes before its NUL. -/
def StringAt (m : ByteMem) (a n : Nat) : Prop := m (a + n) = 0 ∧ ∀ i < n, m (a + i) ≠ 0

theorem StringAt.succ {a n : Nat} (h : StringAt m (a + 1) n) (more : m a ≠ 0) :
    StringAt m a (n + 1) := by
  refine ⟨?_, fun i hi => ?_⟩
  · rw [Nat.add_comm n, ← Nat.add_assoc]
    exact h.1
  · cases i with
    | zero => exact more
    | succ i =>
      rw [Nat.add_comm i, ← Nat.add_assoc]
      exact h.2 i (Nat.lt_of_succ_lt_succ hi)

theorem exists_stringAt {a b : Nat} (le : a ≤ b) (nul : m b = 0) :
    ∃ n, StringAt m a n ∧ a + n ≤ b := by
  induction le using Nat.decreasingInduction with
  | self => exact ⟨0, ⟨nul, fun i hi => absurd hi (Nat.not_lt_zero i)⟩, Nat.le_refl b⟩
  | of_succ a below ih =>
    by_cases here : m a = 0
    · exact ⟨0, ⟨here, fun i hi => absurd hi (Nat.not_lt_zero i)⟩, Nat.le_of_lt below⟩
    · obtain ⟨n, rest, bound⟩ := ih
      exact ⟨n + 1, rest.succ here, by omega⟩

theorem coStrlen_nul {a : Nat} (fuel : Nat) (nul : m a = 0) :
    coStrlen m (fuel + 1) a = ⟨[(a, 1)], 0⟩ := by
  rw [coStrlen, nul]
  rfl

/-- A byte that is not the NUL. -/
theorem coStrlen_more {a : Nat} (fuel : Nat) (more : m a ≠ 0) :
    (coStrlen m (fuel + 1) a).value = (coStrlen m fuel ((a + 1) % wordSize)).value + 1 ∧
      ∀ P, (coStrlen m (fuel + 1) a).All P ↔
        P (a, 1) ∧ (coStrlen m fuel ((a + 1) % wordSize)).All P := by
  rw [coStrlen]
  constructor
  · rw [Traced.value_bind, Traced.value_read, if_neg more]
    rfl
  · intro P
    rw [Traced.all_bind, Traced.all_read, Traced.value_read, if_neg more, Traced.all_bind]
    exact and_congr_right fun _ => and_iff_left (Traced.all_pure _)

/-- `co_strlen` reads up to the NUL. -/
theorem coStrlen_spec {a n fuel : Nat} (h : StringAt m a n) (inside : a + n < wordSize)
    (enough : n < fuel) :
    (coStrlen m fuel a).value = n ∧
      ∀ P, (coStrlen m fuel a).All P ↔ ∀ i ≤ n, P (a + i, 1) := by
  induction n generalizing a fuel with
  | zero =>
    obtain ⟨fuel, rfl⟩ := Nat.exists_eq_add_of_lt enough
    have nul : m a = 0 := h.1
    rw [Nat.zero_add, coStrlen_nul fuel nul]
    simp [Traced.All]
  | succ n ih =>
    obtain ⟨fuel, rfl⟩ := Nat.exists_eq_add_of_lt (Nat.zero_lt_of_lt enough)
    rw [Nat.zero_add] at enough ⊢
    have rest : StringAt m (a + 1) n := by
      refine ⟨?_, fun i hi => ?_⟩
      · rw [Nat.add_assoc, Nat.add_comm 1]
        exact h.1
      · rw [Nat.add_assoc, Nat.add_comm 1]
        exact h.2 (i + 1) (Nat.succ_lt_succ hi)
    have more : m a ≠ 0 := h.2 0 (Nat.succ_pos n)
    obtain ⟨value, reads⟩ := coStrlen_more fuel more
    have next : (a + 1) % wordSize = a + 1 := Nat.mod_eq_of_lt (by omega)
    rw [next] at value reads
    obtain ⟨value', reads'⟩ := ih rest (by omega) (Nat.lt_of_succ_lt_succ enough)
    refine ⟨by rw [value, value'], fun P => ?_⟩
    rw [reads, reads']
    constructor
    · rintro ⟨first, later⟩ i hi
      cases i with
      | zero => exact first
      | succ i =>
        rw [Nat.add_comm i, ← Nat.add_assoc]
        exact later i (Nat.le_of_succ_le_succ hi)
    · intro all
      refine ⟨all 0 (Nat.zero_le _), fun i hi => ?_⟩
      rw [Nat.add_assoc, Nat.add_comm 1]
      exact all (i + 1) (Nat.succ_le_succ hi)

theorem coStrlen_first {P : Nat × Nat → Prop} {a fuel : Nat} (some : 0 < fuel)
    (reads : (coStrlen m fuel a).All P) : P (a, 1) := by
  obtain ⟨fuel, rfl⟩ := Nat.exists_eq_add_of_lt some
  rw [Nat.zero_add] at reads
  by_cases nul : m a = 0
  · rw [coStrlen_nul fuel nul] at reads
    exact reads (a, 1) List.mem_cons_self
  · exact (((coStrlen_more fuel nul).2 P).mp reads).1

/-- If all that `co_strlen` reads is in the page, the string ends in it. -/
theorem coStrlen_inPage {a fuel : Nat} (inMemory : page + coArchPageSize ≤ wordSize)
    (enough : page + coArchPageSize - a < fuel) (reads : (coStrlen m fuel a).All (InPage page)) :
    page ≤ a ∧ ∃ b, a ≤ b ∧ b < page + coArchPageSize ∧ m b = 0 := by
  induction fuel generalizing a with
  | zero => exact absurd enough (Nat.not_lt_zero _)
  | succ fuel ih =>
    obtain ⟨low, high⟩ := coStrlen_first (Nat.succ_pos fuel) reads
    dsimp only at low high
    refine ⟨low, ?_⟩
    by_cases nul : m a = 0
    · exact ⟨a, Nat.le_refl a, high, nul⟩
    · obtain ⟨-, later⟩ := ((coStrlen_more fuel nul).2 _).mp reads
      by_cases last : a + 1 = wordSize
      · -- the next byte is the first of the address space
        rw [last, Nat.mod_self] at later
        obtain ⟨zero, -⟩ := coStrlen_first (by omega) later
        simp only [coArchPageSize, wordSize] at inMemory high last zero
        omega
      · rw [Nat.mod_eq_of_lt (by omega)] at later
        obtain ⟨-, b, above, below, end'⟩ := ih (by omega) later
        exact ⟨b, by omega, below, end'⟩

/-! ## Texts -/

theorem textAt_nul {a : Nat} {s : List UInt8} (h : m.TextAt a s) : m (a + s.length) = 0 := by
  have last := congrArg (fun l => l.getD s.length 1) h
  simpa [ByteMem.slice] using last

theorem textAt_drop {a : Nat} {s : List UInt8} (h : m.TextAt a s) {k : Nat} (le : k ≤ s.length) :
    m.TextAt (a + k) (s.drop k) := by
  have rest := m.slice_drop a (Nat.le_succ_of_le le)
  rw [h, List.drop_append_of_le_length le] at rest
  rw [ByteMem.TextAt, List.length_drop, rest, Nat.succ_sub le]

theorem textAt_front {a : Nat} {s t : List UInt8} (h : m.TextAt a (s ++ 0 :: t)) :
    m.TextAt a s := by
  have front := m.slice_take a (show s.length + 1 ≤ (s ++ 0 :: t).length + 1 by simp)
  rw [h] at front
  have split : s ++ 0 :: t ++ [0] = (s ++ [0]) ++ (t ++ [0]) := by simp
  rw [split] at front
  rw [ByteMem.TextAt, ← front]
  exact List.take_left' (List.length_append ..)

theorem textAt_slice {a : Nat} {s : List UInt8} (h : m.TextAt a s) : m.slice a s.length = s := by
  rw [← m.slice_take a (Nat.le_succ s.length), h, List.take_left]

/-- The first bytes of a memory with a text are the first bytes of the text, and its NUL if there
are more. -/
theorem textAt_first {text : ByteMem} {s : List UInt8} (h : m.TextAt 0 s) {k : Nat}
    (first : text.TextAt 0 (m.slice 0 k)) : text.TextAt 0 (s.take k) := by
  by_cases short : k ≤ s.length
  · rwa [← m.slice_take 0 short, textAt_slice h] at first
  · obtain ⟨j, rfl⟩ := Nat.exists_eq_add_of_lt (Nat.not_le.mp short)
    rw [Nat.add_right_comm, m.slice_add, h, List.append_assoc, List.singleton_append] at first
    rw [List.take_of_length_le (Nat.le_of_not_le short)]
    exact textAt_front first

theorem textAt_string {a : Nat} {s : List UInt8} (h : m.TextAt a s) (noNul : 0 ∉ s) :
    StringAt m a s.length := by
  refine ⟨textAt_nul h, fun i hi same => noNul ?_⟩
  have entry := congrArg (fun l => l.getD i 1) (textAt_slice h)
  have here : m (a + i) = s[i] := by simpa [ByteMem.slice, hi] using entry
  rw [← same, here]
  exact List.getElem_mem hi

/-- A text that was copied and ended. -/
theorem textAt_stored (text : ByteMem) (bytes : List UInt8) :
    ((text.copyBytes 0 bytes.length (ByteMem.ofList bytes)).copyBytes bytes.length 1
      fun _ => 0).TextAt 0 bytes := by
  rw [ByteMem.TextAt, ByteMem.slice_copyBytes_end, ByteMem.slice_copyBytes_inside,
    ByteMem.slice_ofList]
  rfl

/-- A text behind three dots. -/
theorem textAt_dots (text : ByteMem) (bytes : List UInt8) :
    (((text.copyBytes 0 3 fun _ => 46).copyBytes 3 bytes.length (ByteMem.ofList bytes)).copyBytes
      (3 + bytes.length) 1 fun _ => 0).TextAt 0 ([46, 46, 46] ++ bytes) := by
  have length : ([46, 46, 46] ++ bytes).length = 3 + bytes.length := by
    rw [List.length_append]
    rfl
  rw [ByteMem.TextAt, length, ByteMem.slice_copyBytes_end, ByteMem.slice_copyBytes_end,
    ByteMem.slice_copyBytes_inside, ByteMem.slice_ofList]
  rfl

theorem nulInside_of_textAt {text : ByteMem} {s : List UInt8} (h : text.TextAt 0 s)
    (short : s.length < sizeofBugText) : NulInside text := by
  have nul := textAt_nul h
  rw [Nat.zero_add] at nul
  exact ⟨s.length, short, nul⟩

/-! ## Copying the text -/

theorem copyText_value (str len : Nat) (text : ByteMem) :
    (copyText m str len text).value.TextAt 0 (m.slice str len) := by
  have stored := textAt_stored text (m.slice str len)
  rwa [ByteMem.length_slice] at stored

theorem copyText_all {P : Nat × Nat → Prop} (str len : Nat) (text : ByteMem) :
    (copyText m str len text).All P ↔ P (str, len) := by
  rw [copyText, Traced.all_bind, Traced.all_read]
  exact and_iff_left (Traced.all_pure _)

theorem printed_eq (room n : Nat) : (if room < n then room else n) = min room n := by
  split <;> omega

theorem length_pvsnfmtStr (room s : Nat) : (pvsnfmtStr m room s).value.length ≤ room := by
  unfold pvsnfmtStr
  split_ifs
  · exact List.length_take_le room nullText
  · rw [Traced.value_bind, Traced.value_read, ByteMem.length_slice, printed_eq]
    exact Nat.min_le_left ..

theorem pvsnfmtStr_value {room s n : Nat} (nonnull : s ≠ 0) (string : StringAt m s n)
    (inMemory : s + n < wordSize) :
    (pvsnfmtStr m room s).value = m.slice s (min room n) := by
  have length := (coStrlen_spec string inMemory (show n < wordSize by omega)).1
  rw [pvsnfmtStr, if_neg nonnull, Traced.value_bind, Traced.value_read, length, printed_eq]

/-- The end of a name is read within the page if it is no null pointer and the string from there on
ends in the page. -/
theorem pvsnfmtStr_all {room s : Nat} (inMemory : page + coArchPageSize ≤ wordSize) :
    (pvsnfmtStr m room s).All (InPage page) ↔
      s = 0 ∨ page ≤ s ∧ ∃ b, s ≤ b ∧ b < page + coArchPageSize ∧ m b = 0 := by
  unfold pvsnfmtStr
  by_cases null : s = 0
  · rw [if_pos null]
    exact iff_of_true (Traced.all_pure _) (.inl null)
  rw [if_neg null, or_iff_right null, Traced.all_bind, Traced.all_read]
  constructor
  · rintro ⟨reads, -⟩
    obtain ⟨low, -⟩ := coStrlen_first (by decide) reads
    dsimp only at low
    refine coStrlen_inPage inMemory ?_ reads
    simp only [coArchPageSize, wordSize] at inMemory ⊢
    omega
  · rintro ⟨low, b, above, below, nul⟩
    obtain ⟨n, string, bound⟩ := exists_stringAt above nul
    obtain ⟨value, reads⟩ := coStrlen_spec string (show s + n < wordSize by omega)
      (show n < wordSize by omega)
    rw [reads, value, printed_eq]
    refine ⟨fun i hi => ⟨?_, ?_⟩, low, ?_⟩
    · exact Nat.le_add_right_of_le low
    · show s + i + 1 ≤ _
      omega
    · show s + min room n ≤ _
      omega

theorem snprintfEnd_value (s : Nat) (text : ByteMem) :
    (snprintfEnd m s text).value.TextAt 0
      ([46, 46, 46] ++ (pvsnfmtStr m (sizeofBugText - 3 - 1) s).value) :=
  textAt_dots ..

theorem snprintfEnd_all {P : Nat × Nat → Prop} (s : Nat) (text : ByteMem) :
    (snprintfEnd m s text).All P ↔ (pvsnfmtStr m (sizeofBugText - 3 - 1) s).All P := by
  rw [snprintfEnd, Traced.all_bind]
  exact and_iff_left (Traced.all_pure _)

/-! ## The report -/

/-- The end of the name that is shown is a null pointer, or it starts in the page and there is a NUL
in the rest of it. -/
def NameEndsInPage (m : ByteMem) (page len : Nat) : Prop :=
  nameEnd page len = 0 ∨
    page ≤ nameEnd page len ∧ ∃ b, nameEnd page len ≤ b ∧ b < page + coArchPageSize ∧ m b = 0

/-- A guest's report is taken as it should be: within the page, as a text that ends in its array,
and with the text that the guest's own functions placed. -/
structure ReportSound (m : ByteMem) (page : Nat) (c : TerminatedMonitor) : Prop where
  reads : (coTerminate m page c).All (InPage page)
  terminated : NulInside (coTerminate m page c).value.2.bugInfo.text
  panic : ∀ (before text : ByteMem) (s : CText) (len : Nat), text.TextAt 0 s.val →
    TextFits len → m = coTerminatePanic page text len before →
      (coTerminate m page c).value.2.bugInfo.text.TextAt 0
        (s.val.take (min len (sizeofBugText - 1)))
  bug : ∀ (before : ByteMem) (code line : Nat) (file : CText), TextFits file.val.length →
    m = coTerminateBug page code line file before →
      (coTerminate m page c).value.2.bugInfo.text.TextAt 0 (shownName file.val)

variable {c : TerminatedMonitor}

theorem coTerminate_all {P : Nat × Nat → Prop} :
    (coTerminate m page c).All P ↔ P (paramAddress page 3, 4) ∧ P (paramAddress page 0, 4) ∧
      (reportedInfo m page (m.readWord (paramAddress page 0)) (m.readWord (paramAddress page 3))
        c.bugInfo).All P := by
  rw [coTerminate, readParam, readParam, Traced.all_bind, Traced.all_bind, Traced.all_bind,
    Traced.all_read, Traced.all_read, Traced.value_read, Traced.value_read]
  rw [and_iff_left (Traced.all_pure _)]

theorem coTerminate_bugInfo : (coTerminate m page c).value.2.bugInfo =
    (reportedInfo m page (m.readWord (paramAddress page 0)) (m.readWord (paramAddress page 3))
      c.bugInfo).value := rfl

theorem param_inPage {i : Nat} (few : i ≤ 4) : InPage page (paramAddress page i, 4) := by
  simp only [InPage, paramAddress, operationAddress, coArchPageSize]
  omega

theorem text_inPage {len : Nat} (short : len < sizeofBugText) :
    InPage page (paramAddress page 4, len) := by
  simp only [sizeofBugText] at short
  simp only [InPage, paramAddress, operationAddress, coArchPageSize]
  omega

/-- What is read of the page depends on the length of a file's name only. -/
theorem reportedInfo_all (inMemory : page + coArchPageSize ≤ wordSize) (reason len : Nat)
    (info : BugInfo) :
    (reportedInfo m page reason len info).All (InPage page) ↔
      (reason = terminateBug → sizeofBugText - 1 ≤ len → NameEndsInPage m page len) := by
  unfold reportedInfo
  by_cases panic : reason = terminatePanic
  · rw [if_pos panic, Traced.all_bind, copyText_all, and_iff_left (Traced.all_pure _)]
    refine iff_of_true (text_inPage ?_) fun bug => absurd (panic.symm.trans bug) (by decide)
    simp only [sizeofBugText]
    split <;> omega
  rw [if_neg panic]
  by_cases bug : reason = terminateBug
  · rw [if_pos bug, readParam, readParam, Traced.all_bind, Traced.all_bind, Traced.all_bind,
      Traced.all_read, Traced.all_read, and_iff_left (Traced.all_pure _),
      and_iff_right (param_inPage (by decide)), and_iff_right (param_inPage (by decide)),
      imp_iff_right bug, bugText]
    by_cases short : len < sizeofBugText - 1
    · rw [if_pos short, copyText_all]
      exact iff_of_true (text_inPage (Nat.lt_of_lt_pred short))
        fun long => absurd short (Nat.not_lt.mpr long)
    · rw [if_neg short, snprintfEnd_all, pvsnfmtStr_all inMemory,
        imp_iff_right (Nat.not_lt.mp short)]
      rfl
  · rw [if_neg bug]
    exact iff_of_true (Traced.all_pure _) fun same => absurd same bug

/-! ## What is stored -/

theorem bugText_nul (len : Nat) (text : ByteMem) :
    NulInside (bugText m page len text).value := by
  unfold bugText
  split
  · refine nulInside_of_textAt (copyText_value ..) ?_
    rw [ByteMem.length_slice]
    exact Nat.lt_of_lt_pred ‹_›
  · refine nulInside_of_textAt (snprintfEnd_value ..) ?_
    have short := length_pvsnfmtStr (m := m) (sizeofBugText - 3 - 1) (nameEnd page len)
    rw [List.length_append]
    simp only [sizeofBugText, List.length_cons, List.length_nil] at short ⊢
    omega

/-- Whatever the page holds, the text ends in its array. -/
theorem reportedInfo_nul (reason len : Nat) {info : BugInfo} (old : NulInside info.text) :
    NulInside (reportedInfo m page reason len info).value.text := by
  unfold reportedInfo
  split
  · refine nulInside_of_textAt (copyText_value ..) ?_
    rw [ByteMem.length_slice]
    simp only [sizeofBugText]
    split <;> omega
  · split
    · exact bugText_nul len info.text
    · exact old

/-! ## The guest's reports -/

theorem reason_placeReport {reason first second len : Nat} (h : reason < 2 ^ 32) :
    (placeReport page reason first second len m).readWord (paramAddress page 0) = reason := by
  unfold placeReport
  rw [ByteMem.readWord_writeWord_outside, ByteMem.readWord_writeWord_outside,
    ByteMem.readWord_writeWord_outside, ByteMem.readWord_writeWord_self _ _ h]
  all_goals simp only [paramAddress]; omega

theorem length_placeReport {reason first second len : Nat} (h : len < 2 ^ 32) :
    (placeReport page reason first second len m).readWord (paramAddress page 3) = len :=
  ByteMem.readWord_writeWord_self _ _ h

theorem TextFits.word {n : Nat} (h : TextFits n) : n < 2 ^ 32 := by
  simp only [TextFits, coArchPageSize] at h
  omega

/-- A placed text leaves the parameters before it. -/
theorem readParam_copyBytes {i n : Nat} (text : ByteMem) (before : i < 4) :
    (m.copyBytes (paramAddress page 4) n text).readWord (paramAddress page i) =
      m.readWord (paramAddress page i) := by
  apply ByteMem.readWord_copyBytes_outside
  simp only [paramAddress]
  omega

theorem coTerminatePanic_stored {before text : ByteMem} {s : List UInt8} {len : Nat}
    (placed : text.TextAt 0 s) (fits : TextFits len)
    (report : m = coTerminatePanic page text len before) :
    (coTerminate m page c).value.2.bugInfo.text.TextAt 0
      (s.take (min len (sizeofBugText - 1))) := by
  have reason : m.readWord (paramAddress page 0) = terminatePanic := by
    rw [report, coTerminatePanic, readParam_copyBytes text (by decide),
      reason_placeReport (by decide)]
  have length : m.readWord (paramAddress page 3) = len := by
    rw [report, coTerminatePanic, readParam_copyBytes text (by decide),
      length_placeReport fits.word]
  have cut : (if sizeofBugText - 1 ≤ len then sizeofBugText - 1 else len) =
      min len (sizeofBugText - 1) := by
    split <;> omega
  have copied : m.slice (paramAddress page 4) (min len (sizeofBugText - 1)) =
      text.slice 0 (min len (sizeofBugText - 1)) := by
    have fewer : min len (sizeofBugText - 1) ≤ len + 1 := by omega
    rw [← m.slice_take _ fewer, ← text.slice_take _ fewer, report, coTerminatePanic,
      ByteMem.slice_copyBytes_inside]
  rw [coTerminate_bugInfo, reason, length, reportedInfo, if_pos rfl, cut]
  refine textAt_first placed ?_
  rw [← copied]
  exact copyText_value ..

theorem coTerminateBug_text {before : ByteMem} {code line : Nat} {file : List UInt8}
    {noNul : 0 ∉ file} : (coTerminateBug page code line ⟨file, noNul⟩ before).TextAt
      (paramAddress page 4) file := ByteMem.textAt_storeText ..

/-- The end of a long name starts in the name, if its NUL is in memory. -/
theorem nameEnd_eq {len : Nat} (long : sizeofBugText - 1 ≤ len)
    (inMemory : paramAddress page 4 + len < wordSize) :
    nameEnd page len = paramAddress page 4 + (len - (sizeofBugText - 4)) := by
  simp only [sizeofBugText] at long
  have sum : paramAddress page 4 + len + wordSize - sizeofBugText + 4 =
      paramAddress page 4 + (len - (sizeofBugText - 4)) + wordSize := by
    simp only [sizeofBugText, wordSize]
    omega
  rw [nameEnd, sum, Nat.add_mod_right]
  exact Nat.mod_eq_of_lt (by omega)

theorem snprintfEnd_stored {a : Nat} {s : List UInt8} {text : ByteMem} (placed : m.TextAt a s)
    (noNul : 0 ∉ s) (nonnull : a ≠ 0) (inMemory : a + s.length < wordSize)
    (short : s.length ≤ sizeofBugText - 3 - 1) :
    (snprintfEnd m a text).value.TextAt 0 ([46, 46, 46] ++ s) := by
  have stored := snprintfEnd_value (m := m) a text
  rwa [pvsnfmtStr_value nonnull (textAt_string placed noNul) inMemory, Nat.min_eq_right short,
    textAt_slice placed] at stored

/-- The text of a name that is placed in the page. -/
theorem bugText_stored {file : List UInt8} {text : ByteMem}
    (placed : m.TextAt (paramAddress page 4) file) (noNul : 0 ∉ file)
    (inMemory : paramAddress page 4 + file.length < wordSize) :
    (bugText m page file.length text).value.TextAt 0 (shownName file) := by
  unfold bugText shownName
  split
  · have stored := copyText_value (m := m) (paramAddress page 4) file.length text
    rwa [textAt_slice placed] at stored
  · rename_i long
    rw [nameEnd_eq (Nat.not_lt.mp long) inMemory]
    refine snprintfEnd_stored (textAt_drop placed (Nat.sub_le ..))
      (fun nul => noNul (List.mem_of_mem_drop nul)) ?_ ?_ ?_
    · simp only [paramAddress, operationAddress]
      omega
    all_goals
      rw [List.length_drop]
      simp only [sizeofBugText] at long ⊢
      omega

theorem coTerminateBug_stored {before : ByteMem} {code line : Nat} {file : CText}
    (inMemory : page + coArchPageSize ≤ wordSize) (fits : TextFits file.val.length)
    (report : m = coTerminateBug page code line file before) :
    (coTerminate m page c).value.2.bugInfo.text.TextAt 0 (shownName file.val) := by
  have reason : m.readWord (paramAddress page 0) = terminateBug := by
    rw [report, coTerminateBug, ByteMem.storeText, readParam_copyBytes _ (by decide),
      reason_placeReport (by decide)]
  have length : m.readWord (paramAddress page 3) = file.val.length := by
    rw [report, coTerminateBug, ByteMem.storeText, readParam_copyBytes _ (by decide),
      length_placeReport fits.word]
  have inside : paramAddress page 4 + file.val.length < wordSize := by
    simp only [TextFits, paramAddress, operationAddress, coArchPageSize] at fits inMemory ⊢
    omega
  have placed : m.TextAt (paramAddress page 4) file.val := report ▸ coTerminateBug_text
  rw [coTerminate_bugInfo, reason, length, reportedInfo, if_neg (by decide), if_pos rfl]
  exact bugText_stored placed file.property inside

/-! ## Soundness -/

/-- What is read of the page. -/
theorem coTerminate_reads_iff (inMemory : page + coArchPageSize ≤ wordSize) :
    (coTerminate m page c).All (InPage page) ↔
      (m.readWord (paramAddress page 0) = terminateBug →
        sizeofBugText - 1 ≤ m.readWord (paramAddress page 3) →
          NameEndsInPage m page (m.readWord (paramAddress page 3))) := by
  rw [coTerminate_all, and_iff_right (param_inPage (by decide)),
    and_iff_right (param_inPage (by decide))]
  exact reportedInfo_all inMemory ..

/-- A report is sound unless it names a source file by a long length whose end, as it is computed,
is neither a null pointer nor a string of the page. -/
theorem coTerminate_sound_iff (inMemory : page + coArchPageSize ≤ wordSize)
    (old : NulInside c.bugInfo.text) :
    ReportSound m page c ↔ (m.readWord (paramAddress page 0) = terminateBug →
      sizeofBugText - 1 ≤ m.readWord (paramAddress page 3) →
        NameEndsInPage m page (m.readWord (paramAddress page 3))) := by
  constructor
  · intro sound
    exact (coTerminate_reads_iff inMemory).mp sound.reads
  · intro ends
    exact {
      reads := (coTerminate_reads_iff inMemory).mpr ends
      terminated := reportedInfo_nul _ _ old
      panic := fun _ _ _ _ placed fits report => coTerminatePanic_stored placed fits report
      bug := fun _ _ _ _ fits report => coTerminateBug_stored inMemory fits report }

/-- A monitor whose guest runs. -/
def runningMonitor : TerminatedMonitor where
  timerActive := true
  terminationReason := 0
  bugInfo := ⟨0, 0, fun _ => 0⟩
  state := .running

/-- A file name of 130 characters. -/
def longName : CText :=
  ⟨List.replicate 130 97, fun nul => absurd (List.eq_of_mem_replicate nul) (by decide)⟩

/-- The reports of a panic and of a failed assertion in a file with a name of 130 characters, in a
page at 64 KiB, and the report whose length word makes the end of the name a null pointer. -/
theorem coTerminate_sound_reports :
    ReportSound (coTerminatePanic 0x10000 (ByteMem.ofList [79, 111, 112, 115, 0]) 4 fun _ => 0)
        0x10000 runningMonitor ∧
      ReportSound (coTerminateBug 0x10000 1 7 longName fun _ => 0)
        0x10000 runningMonitor ∧
      ReportSound (placeReport 0x10000 terminateBug 1 1 0xfffefcf0 fun _ => 0) 0x10000
        runningMonitor := by
  refine ⟨(coTerminate_sound_iff (by decide) ⟨0, by decide, rfl⟩).mpr fun bug => ?_,
    (coTerminate_sound_iff (by decide) ⟨0, by decide, rfl⟩).mpr fun _ _ => ?_,
    (coTerminate_sound_iff (by decide) ⟨0, by decide, rfl⟩).mpr fun _ _ => ?_⟩
  · rw [coTerminatePanic, readParam_copyBytes _ (by decide),
      reason_placeReport (by decide)] at bug
    exact absurd bug (by decide)
  · have length : longName.val.length = 130 := List.length_replicate
    have word : ByteMem.readWord (coTerminateBug 0x10000 1 7 longName fun _ => 0)
        (paramAddress 0x10000 3) = 130 := by
      rw [coTerminateBug, ByteMem.storeText, readParam_copyBytes _ (by decide), length,
        length_placeReport (by decide)]
    have nul := textAt_nul (@coTerminateBug_text 0x10000 (fun _ => 0) 1 7 _ longName.property)
    rw [length] at nul
    rw [word]
    exact .inr ⟨by decide, paramAddress 0x10000 4 + 130, by decide, by decide, nul⟩
  · rw [length_placeReport (by decide)]
    exact .inl (by decide)

/-- The report of a failed assertion with a length of 64 KiB: the name is looked for behind the
page. -/
theorem coTerminate_longLength :
    ¬ ReportSound (placeReport 0x10000 terminateBug 1 1 0x10000 fun _ => 0) 0x10000
      runningMonitor := by
  intro sound
  have ends := (coTerminate_reads_iff (by decide)).mp sound.reads
    (reason_placeReport (by decide)) (by rw [length_placeReport (by decide)]; decide)
  rw [length_placeReport (by decide)] at ends
  have behind : 0x10000 + coArchPageSize ≤ nameEnd 0x10000 0x10000 := by decide
  rcases ends with null | ⟨-, b, above, below, -⟩
  · omega
  · omega

end CoLinux
