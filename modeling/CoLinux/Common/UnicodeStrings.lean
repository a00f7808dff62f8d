import CoLinux.Common.Unicode
import Mathlib.Tactic.Set

/-!
# Wide strings and UTF-8

What `co_utf8_dup_to_wc` makes of a byte string, and the way of a wide string to bytes and back.
-/

namespace CoLinux

/-! ## Sequences -/

/-- A byte that continues a sequence. -/
def IsCont (b : UInt8) : Prop := (b.toNat ^^^ 0x80) &&& 0xC0 = 0

/-- A continuation byte starts no sequence of the table. -/
theorem cont_starts_nothing {b : Nat} (small : b < 256) (cont : (b ^^^ 0x80) &&& 0xC0 = 0) :
    0x80 ≤ b ∧ ∀ t ∈ utf8Table, b &&& t.cmask ≠ t.cval := by
  have all : ∀ b < 256, (b ^^^ 0x80) &&& 0xC0 = 0 →
      0x80 ≤ b ∧ ∀ t ∈ utf8Table, b &&& t.cmask ≠ t.cval := by decide +kernel
  exact all b small cont

theorem at0_zero_not_cont : ¬((0 ^^^ 0x80) &&& 0xC0 : Nat) = 0 := by decide

theorem mbtowcLoop_none {c0 : Nat} {rows : List Utf8Row}
    (h : ∀ t ∈ rows, c0 &&& t.cmask ≠ t.cval) (n nc l : Nat) (s : CString) :
    mbtowcLoop c0 n rows nc l s = none := by
  induction rows generalizing nc l s with
  | nil => rfl
  | cons t rows ih =>
    rw [mbtowcLoop, if_neg (h t List.mem_cons_self)]
    split_ifs
    · rfl
    · rfl
    · exact ih (fun t ht => h t (List.mem_cons_of_mem _ ht)) _ _ _

/-- A decoded sequence: its length is within the limit, and all its bytes but the first continue
it. -/
theorem mbtowcLoop_some {c0 n nc l : Nat} {rows : List Utf8Row} {s : CString} {u : CoWchar × Nat}
    (h : mbtowcLoop c0 n rows nc l s = some u) :
    nc < u.2 ∧ (u.2 = nc + 1 ∨ u.2 ≤ n) ∧ u.2 ≤ nc + 1 + s.length ∧
      ∀ b ∈ s.take (u.2 - (nc + 1)), IsCont b := by
  induction rows generalizing nc l s with
  | nil => contradiction
  | cons t rows ih =>
    rw [mbtowcLoop] at h
    split_ifs at h with found small limit cont
    · cases h
      refine ⟨by simp, .inl rfl, by simp, ?_⟩
      simp
    · obtain ⟨above, bound, inside, conts⟩ := ih h
      have cont : (s.at0 ^^^ 0x80) &&& 0xC0 = 0 := not_not.mp cont
      cases s with
      | nil => exact absurd cont at0_zero_not_cont
      | cons b s =>
        simp only [List.tail_cons] at inside conts
        refine ⟨by omega, .inr (by omega), by simp only [List.length_cons]; omega, ?_⟩
        obtain ⟨k, length⟩ : ∃ k, u.2 - (nc + 1) = k + 1 := ⟨u.2 - (nc + 2), by omega⟩
        rw [length, List.take_succ_cons]
        intro c hc
        rcases List.mem_cons.mp hc with rfl | hc
        · exact cont
        · refine conts c ?_
          rw [show u.2 - (nc + 1 + 1) = k by omega]
          exact hc

/-- A larger limit changes nothing about a sequence that was decoded. -/
theorem mbtowcLoop_mono {c0 n m nc l : Nat} {rows : List Utf8Row} {s : CString}
    {u : CoWchar × Nat} (h : mbtowcLoop c0 n rows nc l s = some u) (le : u.2 ≤ m) :
    mbtowcLoop c0 m rows nc l s = some u := by
  induction rows generalizing nc l s with
  | nil => contradiction
  | cons t rows ih =>
    rw [mbtowcLoop] at h ⊢
    split_ifs at h with found small limit cont
    · rw [if_pos found, if_neg small]
      exact h
    · have above := (mbtowcLoop_some h).1
      rw [if_neg found, if_neg (by omega), if_neg cont]
      exact ih h

/-- Without a limit other than the end of the string. -/
def nextWhole (s : CString) : CoWchar × Nat := nextUnit s s.length

theorem utf8Mbtowc_whole {s : CString} {n : Nat} {u : CoWchar × Nat} (nonempty : s ≠ [])
    (h : utf8Mbtowc s n = some u) : utf8Mbtowc s s.length = some u := by
  obtain ⟨-, -, inside, -⟩ := mbtowcLoop_some h
  obtain ⟨b, s, rfl⟩ := List.exists_cons_of_ne_nil nonempty
  exact mbtowcLoop_mono h (by simpa [Nat.add_comm] using inside)

/-- A limit that leaves room for the sequence does not show. -/
theorem nextUnit_of_le {s : CString} {n : Nat} (nonempty : s ≠ []) (le : (nextWhole s).2 ≤ n) :
    nextUnit s n = nextWhole s := by
  unfold nextWhole nextUnit at le ⊢
  split_ifs with high
  · rw [if_pos high] at le
    cases whole : utf8Mbtowc s s.length with
    | some u =>
      rw [whole] at le
      have limited : utf8Mbtowc s n = some u := mbtowcLoop_mono whole le
      rw [limited]
    | none =>
      cases limited : utf8Mbtowc s n with
      | none => rfl
      | some u =>
        rw [utf8Mbtowc_whole nonempty limited] at whole
        contradiction
  · rfl

/-- A limit that does not is taken for an error, and what follows are continuation bytes. -/
theorem nextUnit_of_lt {s : CString} {n : Nat} (positive : 0 < n) (lt : n < (nextWhole s).2) :
    nextUnit s n = (UInt16.ofNat questionMark, 1) ∧ (nextWhole s).2 ≤ s.tail.length + 1 ∧
      ∀ b ∈ s.tail.take ((nextWhole s).2 - 1), IsCont b := by
  unfold nextWhole nextUnit at lt ⊢
  by_cases high : 0x80 ≤ s.at0
  · rw [if_pos high] at lt ⊢
    rw [if_pos high]
    cases whole : utf8Mbtowc s s.length with
    | some u =>
      rw [whole] at lt
      have lt : n < u.2 := lt
      obtain ⟨-, -, inside, conts⟩ := mbtowcLoop_some whole
      refine ⟨?_, by simpa [Nat.add_comm] using inside, by simpa using conts⟩
      cases limited : utf8Mbtowc s n with
      | none => rfl
      | some v =>
        obtain ⟨-, bound, -, -⟩ := mbtowcLoop_some limited
        have le : v.2 ≤ u.2 := by omega
        have same : utf8Mbtowc s u.2 = some v := mbtowcLoop_mono limited le
        have same' : utf8Mbtowc s u.2 = some u := mbtowcLoop_mono whole (Nat.le_refl _)
        obtain rfl := Option.some.inj (same.symm.trans same')
        omega
    | none =>
      rw [whole] at lt
      have lt : n < 1 := lt
      omega
  · rw [if_neg high] at lt
    have lt : n < 1 := lt
    omega

theorem nextUnit_pos (s : CString) (n : Nat) : 0 < (nextUnit s n).2 := by
  unfold nextUnit
  split_ifs
  · cases h : utf8Mbtowc s n with
    | none => exact Nat.one_pos
    | some u => exact (mbtowcLoop_some h).1
  · exact Nat.one_pos

/-- A byte that continues a sequence, where one should start. -/
theorem nextUnit_cont {b : UInt8} (cont : IsCont b) (s : CString) (n : Nat) :
    nextUnit (b :: s) n = (UInt16.ofNat questionMark, 1) := by
  obtain ⟨high, starts⟩ := cont_starts_nothing b.toNat_lt cont
  have at0 : CString.at0 (b :: s) = b.toNat := rfl
  have none : utf8Mbtowc (b :: s) n = none := mbtowcLoop_none (by rwa [at0]) _ _ _ _
  rw [nextUnit, at0, if_pos high, none]

/-! ## Decoding without a limit -/

/-- The sequences of a string, each with its length, with a bound on their number. -/
def sequencesLoop : Nat → CString → List (CoWchar × Nat)
  | 0, _ => []
  | _ + 1, [] => []
  | turns + 1, b :: s =>
    nextWhole (b :: s) :: sequencesLoop turns ((b :: s).drop (nextWhole (b :: s)).2)

/-- The sequences a string is made of. A byte that starts none counts as one. -/
def sequences (src : CString) : List (CoWchar × Nat) := sequencesLoop src.length src

/-- A string decoded sequence by sequence, with no limit on the output. -/
def decode (src : CString) : List CoWchar := (sequences src).map Prod.fst

/-- A sequence of `k` bytes has at least `k - 2` others after it. -/
def SequencesFit : List (CoWchar × Nat) → Prop
  | [] => True
  | u :: rest => u.2 ≤ rest.length + 2 ∧ SequencesFit rest

theorem mbstrlenLoop_eq (turns : Nat) (s : CString) :
    mbstrlenLoop turns s = (sequencesLoop turns s).length := by
  induction turns generalizing s with
  | zero => rfl
  | succ turns ih =>
    cases s with
    | nil => rfl
    | cons b s =>
      rw [mbstrlenLoop, sequencesLoop, List.length_cons, ih]
      rfl

theorem length_decode (src : CString) : (decode src).length = coUtf8Mbstrlen src := by
  rw [decode, List.length_map, coUtf8Mbstrlen, mbstrlenLoop_eq, sequences]

/-- Where every sequence fits, the limit of the copy loop never shows. -/
theorem mbstowcsLoop_of_fit {turns : Nat} {s : CString}
    (fit : SequencesFit (sequencesLoop turns s)) (enough : s.length ≤ turns) :
    mbstowcsLoop ((sequencesLoop turns s).length + 1) s =
      (sequencesLoop turns s).map Prod.fst := by
  induction turns generalizing s with
  | zero =>
    obtain rfl : s = [] := List.length_eq_zero_iff.mp (Nat.le_zero.mp enough)
    rfl
  | succ turns ih =>
    cases s with
    | nil => rfl
    | cons b s =>
      rw [sequencesLoop] at fit ⊢
      obtain ⟨first, rest⟩ := fit
      have whole := nextUnit_of_le (List.cons_ne_nil b s) first
      have takes := nextUnit_pos (b :: s) (b :: s).length
      have shorter : ((b :: s).drop (nextWhole (b :: s)).2).length ≤ turns := by
        rw [List.length_drop]
        have : 0 < (nextWhole (b :: s)).2 := takes
        simp only [List.length_cons] at enough ⊢
        omega
      rw [List.length_cons, mbstowcsLoop, whole, List.map_cons, ih rest shorter]

/-- A run of continuation bytes fills the output up to its limit. -/
theorem length_mbstowcsLoop_cont {m : Nat} {s : CString} (inside : m ≤ s.length)
    (conts : ∀ b ∈ s.take m, IsCont b) : (mbstowcsLoop m s).length = m := by
  induction m generalizing s with
  | zero => rfl
  | succ m ih =>
    cases s with
    | nil => contradiction
    | cons b s =>
      rw [List.take_succ_cons] at conts
      have first : IsCont b := conts b List.mem_cons_self
      have rest : ∀ c ∈ s.take m, IsCont c := fun c hc => conts c (List.mem_cons_of_mem _ hc)
      rw [mbstowcsLoop, nextUnit_cont first, List.length_cons, List.drop_one, List.tail_cons,
        ih (Nat.le_of_succ_le_succ inside) rest]

/-- A sequence that does not fit makes the output longer than the count. -/
theorem fit_of_length {turns : Nat} {s : CString}
    (length : (mbstowcsLoop ((sequencesLoop turns s).length + 1) s).length =
      (sequencesLoop turns s).length) (enough : s.length ≤ turns) :
    SequencesFit (sequencesLoop turns s) := by
  induction turns generalizing s with
  | zero => trivial
  | succ turns ih =>
    cases s with
    | nil => trivial
    | cons b s =>
      rw [sequencesLoop] at length ⊢
      rw [List.length_cons, mbstowcsLoop, List.length_cons] at length
      set rest := sequencesLoop turns ((b :: s).drop (nextWhole (b :: s)).2) with isRest
      by_cases first : (nextWhole (b :: s)).2 ≤ rest.length + 2
      · have whole := nextUnit_of_le (List.cons_ne_nil b s) first
        have takes : 0 < (nextWhole (b :: s)).2 := nextUnit_pos (b :: s) (b :: s).length
        rw [whole] at length
        refine ⟨first, ih (Nat.succ.inj length) ?_⟩
        rw [List.length_drop]
        simp only [List.length_cons] at enough ⊢
        omega
      · -- the limit stands in the sequence, and the rest of it is decoded byte by byte
        obtain ⟨mark, inside, conts⟩ :=
          nextUnit_of_lt (Nat.succ_pos (rest.length + 1)) (Nat.lt_of_not_le first)
        simp only [List.tail_cons] at inside conts
        have run : (mbstowcsLoop (rest.length + 1) s).length = rest.length + 1 := by
          apply length_mbstowcsLoop_cont
          · omega
          · intro c hc
            exact conts c (List.take_subset_take_left s (by omega) hc)
        rw [mark, List.drop_one, List.tail_cons, run] at length
        omega

/-- `co_utf8_dup_to_wc` agrees with the unlimited decoding exactly when every sequence of
`k` bytes has `k - 2` others after it. -/
theorem coUtf8DupToWc_iff (src : CString) :
    (coUtf8DupToWc true src = .ok (decode src ++ [0], coUtf8Mbstrlen src) ∧
      (decode src).length = coUtf8Mbstrlen src) ↔ SequencesFit (sequences src) := by
  have count : coUtf8Mbstrlen src = (sequences src).length := mbstrlenLoop_eq _ _
  have result : coUtf8DupToWc true src =
      .ok (mbstowcsLoop ((sequences src).length + 1) src ++ [0], coUtf8Mbstrlen src) := by
    rw [coUtf8DupToWc, if_pos rfl, coUtf8Mbstowcs, count]
  constructor
  · rintro ⟨same, -⟩
    rw [result] at same
    have units : mbstowcsLoop ((sequences src).length + 1) src = decode src := by
      injection same with pair
      exact List.append_cancel_right (Prod.mk.inj pair).1
    apply fit_of_length _ (Nat.le_refl _)
    have length := congrArg List.length units
    rw [length_decode, count] at length
    exact length
  · intro fit
    refine ⟨?_, length_decode src⟩
    have units : mbstowcsLoop ((sequences src).length + 1) src = decode src :=
      mbstowcsLoop_of_fit fit (Nat.le_refl _)
    rw [result, units]

/-- "€", three bytes at the end of the string, becomes two question marks. -/
theorem coUtf8DupToWc_euro :
    coUtf8DupToWc true [0xE2, 0x82, 0xAC] = .ok ([0x3F, 0x3F, 0], 1) ∧
      ¬(coUtf8DupToWc true [0xE2, 0x82, 0xAC] =
          .ok (decode [0xE2, 0x82, 0xAC] ++ [0], coUtf8Mbstrlen [0xE2, 0x82, 0xAC]) ∧
        (decode [0xE2, 0x82, 0xAC]).length = coUtf8Mbstrlen [0xE2, 0x82, 0xAC]) := by
  decide +kernel

/-! ## A wide string to bytes and back -/

theorem toNat_ofNat_lt {x : Nat} (h : x < 256) : (UInt8.ofNat x).toNat = x := by
  rw [UInt8.toNat_ofNat']
  exact Nat.mod_eq_of_lt h

/-- The byte that carries six bits of a character, and how it is read. -/
theorem contByte {x : Nat} (h : x < 64) :
    0x80 ||| x < 256 ∧ (0x80 ||| x) ^^^ 0x80 = x ∧ x &&& 0xC0 = 0 ∧ 0x80 ||| x ≠ 0 := by
  have all : ∀ x < 64, 0x80 ||| x < 256 ∧ (0x80 ||| x) ^^^ 0x80 = x ∧ x &&& 0xC0 = 0 ∧
      0x80 ||| x ≠ 0 := by decide
  exact all x h

theorem shiftLeft_or {l x : Nat} (h : x < 64) : l <<< 6 ||| x = l * 64 + x := by
  rw [← Nat.shiftLeft_add_eq_or_of_lt h, Nat.shiftLeft_eq]

/-- A turn of `utf8_mbtowc` over a byte that continues the sequence. -/
theorem mbtowcLoop_cont {c0 n nc l x : Nat} {t : Utf8Row} {rows : List Utf8Row} {s : CString}
    (row : c0 &&& t.cmask ≠ t.cval) (more : nc + 1 < n) (h : x < 64) :
    mbtowcLoop c0 n (t :: rows) nc l (UInt8.ofNat (0x80 ||| x) :: s) =
      mbtowcLoop c0 n rows (nc + 1) (l * 64 + x) s := by
  obtain ⟨byte, bits, high, -⟩ := contByte h
  have at0 : CString.at0 (UInt8.ofNat (0x80 ||| x) :: s) = 0x80 ||| x := toNat_ofNat_lt byte
  rw [mbtowcLoop, if_neg row, if_neg (by omega), at0, bits, if_neg (not_not.mpr high),
    shiftLeft_or h, List.tail_cons]

/-- The turn in which `utf8_mbtowc` finds the row of the sequence. -/
theorem mbtowcLoop_found {c0 n nc l : Nat} {t : Utf8Row} {rows : List Utf8Row} {s : CString}
    (row : c0 &&& t.cmask = t.cval) (least : t.lval ≤ l &&& t.lmask) :
    mbtowcLoop c0 n (t :: rows) nc l s = some (UInt16.ofNat (l &&& t.lmask), nc + 1) := by
  rw [mbtowcLoop, if_pos row, if_neg (by omega)]

theorem lead2 {a : Nat} (h : a < 32) :
    0xC0 ||| a < 256 ∧ 0xC0 ||| a = 0xC0 + a ∧ 0x80 ≤ 0xC0 ||| a ∧
      (0xC0 ||| a) &&& 0x80 ≠ 0 ∧ (0xC0 ||| a) &&& 0xE0 = 0xC0 := by
  have all : ∀ a < 32, 0xC0 ||| a < 256 ∧ 0xC0 ||| a = 0xC0 + a ∧ 0x80 ≤ 0xC0 ||| a ∧
      (0xC0 ||| a) &&& 0x80 ≠ 0 ∧ (0xC0 ||| a) &&& 0xE0 = 0xC0 := by decide
  exact all a h

theorem lead3 {a : Nat} (h : a < 16) :
    0xE0 ||| a < 256 ∧ 0xE0 ||| a = 0xE0 + a ∧ 0x80 ≤ 0xE0 ||| a ∧
      (0xE0 ||| a) &&& 0x80 ≠ 0 ∧ (0xE0 ||| a) &&& 0xE0 ≠ 0xC0 ∧
      (0xE0 ||| a) &&& 0xF0 = 0xE0 := by
  have all : ∀ a < 16, 0xE0 ||| a < 256 ∧ 0xE0 ||| a = 0xE0 + a ∧ 0x80 ≤ 0xE0 ||| a ∧
      (0xE0 ||| a) &&& 0x80 ≠ 0 ∧ (0xE0 ||| a) &&& 0xE0 ≠ 0xC0 ∧
      (0xE0 ||| a) &&& 0xF0 = 0xE0 := by decide
  exact all a h

/-- What the loops need to know of the bytes of a unit. -/
structure EncodesUnit (wc : CoWchar) (bytes : CString) : Prop where
  pos : 0 < bytes.length
  le : bytes.length ≤ 3
  nonzero : 0 ∉ bytes
  written : ∀ {room}, bytes.length ≤ room → unitBytes wc room = some bytes
  decoded : ∀ {rest room}, bytes.length ≤ room →
    nextUnit (bytes ++ rest) room = (wc, bytes.length)

theorem ofNat_ne_zero {x : Nat} (small : x < 256) (h : x ≠ 0) : (0 : UInt8) ≠ UInt8.ofNat x := by
  intro zero
  have := congrArg UInt8.toNat zero
  rw [toNat_ofNat_lt small] at this
  exact h this.symm

theorem encodesUnit_ascii {wc : CoWchar} (nonzero : wc ≠ 0) (h : wc.toNat ≤ 0x7F) :
    EncodesUnit wc [UInt8.ofNat wc.toNat] where
  pos := Nat.one_pos
  le := by simp
  nonzero := by
    have : wc.toNat ≠ 0 := fun zero => nonzero (UInt16.toNat_inj.mp zero)
    simpa using ofNat_ne_zero (by omega) this
  written _ := by rw [unitBytes, if_neg (by omega)]
  decoded {rest _} _ := by
    have at0 : CString.at0 ([UInt8.ofNat wc.toNat] ++ rest) = wc.toNat :=
      toNat_ofNat_lt (by omega)
    rw [nextUnit, at0, if_neg (by omega), UInt16.ofNat_toNat]
    rfl

theorem encodesUnit_two {wc : CoWchar} (low : 0x7F < wc.toNat) (h : wc.toNat ≤ 0x7FF) :
    EncodesUnit wc [UInt8.ofNat (0xC0 ||| wc.toNat >>> 6),
      UInt8.ofNat (0x80 ||| (wc.toNat >>> 0 &&& 0x3F))] := by
  have a : wc.toNat >>> 6 < 32 := by rw [Nat.shiftRight_eq_div_pow]; omega
  have x : wc.toNat >>> 0 &&& 0x3F < 64 := Nat.lt_succ_of_le Nat.and_le_right
  obtain ⟨byte, sum, high, row1, row2⟩ := lead2 a
  obtain ⟨byte', -, -, nonzero'⟩ := contByte x
  have bits : ((0xC0 ||| wc.toNat >>> 6) * 64 + (wc.toNat >>> 0 &&& 0x3F)) &&& 0x7FF =
      wc.toNat := by
    have : wc.toNat >>> 0 &&& 0x3F = wc.toNat % 64 := Nat.and_two_pow_sub_one_eq_mod _ 6
    rw [sum, this, Nat.shiftRight_eq_div_pow, Nat.and_two_pow_sub_one_eq_mod _ 11]
    omega
  refine ⟨by simp, by simp, ?_, ?_, ?_⟩
  · exact List.not_mem_cons_of_ne_of_not_mem (ofNat_ne_zero byte (by omega))
      (List.not_mem_cons_of_ne_of_not_mem (ofNat_ne_zero byte' nonzero') List.not_mem_nil)
  · intro room enough
    obtain ⟨room, rfl⟩ : ∃ r, room = r + 2 := ⟨room - 2, by simp at enough; omega⟩
    rw [unitBytes, if_pos low, utf8Wctomb, utf8Table, wctombLoop, if_neg (by simpa using low),
      wctombLoop, if_pos h]
    rfl
  · intro rest room enough
    have at0 : CString.at0 ([UInt8.ofNat (0xC0 ||| wc.toNat >>> 6),
        UInt8.ofNat (0x80 ||| (wc.toNat >>> 0 &&& 0x3F))] ++ rest) = 0xC0 ||| wc.toNat >>> 6 :=
      toNat_ofNat_lt byte
    have found : utf8Mbtowc ([UInt8.ofNat (0xC0 ||| wc.toNat >>> 6),
        UInt8.ofNat (0x80 ||| (wc.toNat >>> 0 &&& 0x3F))] ++ rest) room = some (wc, 2) := by
      rw [utf8Mbtowc, at0, utf8Table]
      simp only [List.cons_append, List.nil_append, List.tail_cons]
      have least : 0x80 ≤ wc.toNat := low
      have room2 : 0 + 1 < room := enough
      rw [mbtowcLoop_cont row1 room2 x, mbtowcLoop_found row2 (by rw [bits]; exact least), bits,
        UInt16.ofNat_toNat]
    rw [nextUnit, at0, if_pos high, found]
    rfl

theorem encodesUnit_three {wc : CoWchar} (low : 0x7FF < wc.toNat) :
    EncodesUnit wc [UInt8.ofNat (0xE0 ||| wc.toNat >>> 12),
      UInt8.ofNat (0x80 ||| (wc.toNat >>> 6 &&& 0x3F)),
      UInt8.ofNat (0x80 ||| (wc.toNat >>> 0 &&& 0x3F))] := by
  have small := wc.toNat_lt
  have a : wc.toNat >>> 12 < 16 := by rw [Nat.shiftRight_eq_div_pow]; omega
  have x : wc.toNat >>> 6 &&& 0x3F < 64 := Nat.lt_succ_of_le Nat.and_le_right
  have y : wc.toNat >>> 0 &&& 0x3F < 64 := Nat.lt_succ_of_le Nat.and_le_right
  obtain ⟨byte, sum, high, row1, row2, row3⟩ := lead3 a
  obtain ⟨byte', -, -, nonzero'⟩ := contByte x
  obtain ⟨byte'', -, -, nonzero''⟩ := contByte y
  have bits : (((0xE0 ||| wc.toNat >>> 12) * 64 + (wc.toNat >>> 6 &&& 0x3F)) * 64 +
      (wc.toNat >>> 0 &&& 0x3F)) &&& 0xFFFF = wc.toNat := by
    have mid : wc.toNat >>> 6 &&& 0x3F = wc.toNat >>> 6 % 64 := Nat.and_two_pow_sub_one_eq_mod _ 6
    have last : wc.toNat >>> 0 &&& 0x3F = wc.toNat % 64 := Nat.and_two_pow_sub_one_eq_mod _ 6
    rw [sum, mid, last, Nat.shiftRight_eq_div_pow, Nat.shiftRight_eq_div_pow,
      Nat.and_two_pow_sub_one_eq_mod _ 16]
    omega
  refine ⟨by simp, by simp, ?_, ?_, ?_⟩
  · exact List.not_mem_cons_of_ne_of_not_mem (ofNat_ne_zero byte (by omega))
      (List.not_mem_cons_of_ne_of_not_mem (ofNat_ne_zero byte' nonzero')
        (List.not_mem_cons_of_ne_of_not_mem (ofNat_ne_zero byte'' nonzero'') List.not_mem_nil))
  · intro room enough
    obtain ⟨room, rfl⟩ : ∃ r, room = r + 3 := ⟨room - 3, by simp at enough; omega⟩
    rw [unitBytes, if_pos (by omega), utf8Wctomb, utf8Table, wctombLoop,
      if_neg (by simp; omega), wctombLoop, if_neg (by simpa using low), wctombLoop,
      if_pos (by simp; omega)]
    rfl
  · intro rest room enough
    have at0 : CString.at0 ([UInt8.ofNat (0xE0 ||| wc.toNat >>> 12),
        UInt8.ofNat (0x80 ||| (wc.toNat >>> 6 &&& 0x3F)),
        UInt8.ofNat (0x80 ||| (wc.toNat >>> 0 &&& 0x3F))] ++ rest) =
          0xE0 ||| wc.toNat >>> 12 := toNat_ofNat_lt byte
    have room3 : 3 ≤ room := by simpa using enough
    have found : utf8Mbtowc ([UInt8.ofNat (0xE0 ||| wc.toNat >>> 12),
        UInt8.ofNat (0x80 ||| (wc.toNat >>> 6 &&& 0x3F)),
        UInt8.ofNat (0x80 ||| (wc.toNat >>> 0 &&& 0x3F))] ++ rest) room = some (wc, 3) := by
      rw [utf8Mbtowc, at0, utf8Table]
      simp only [List.cons_append, List.nil_append, List.tail_cons]
      have least : 0x800 ≤ wc.toNat := low
      rw [mbtowcLoop_cont row1 (by omega) x, mbtowcLoop_cont row2 (by omega) y,
        mbtowcLoop_found row3 (by rw [bits]; exact least), bits, UInt16.ofNat_toNat]
    rw [nextUnit, at0, if_pos high, found]
    rfl

theorem exists_encodesUnit {wc : CoWchar} (nonzero : wc ≠ 0) : ∃ bytes, EncodesUnit wc bytes := by
  by_cases ascii : wc.toNat ≤ 0x7F
  · exact ⟨_, encodesUnit_ascii nonzero ascii⟩
  · by_cases two : wc.toNat ≤ 0x7FF
    · exact ⟨_, encodesUnit_two (by omega) two⟩
    · exact ⟨_, encodesUnit_three (by omega)⟩

/-- The bytes of the `n` units from `i` on. -/
structure Encodes (src : Nat → CoWchar) (i n : Nat) (bytes : CString) : Prop where
  nonzero : 0 ∉ bytes
  length : bytes.length = wctowbstrlenLoop src n i
  written : ∀ {turns}, bytes.length ≤ turns →
    wcstombsLoop src turns i bytes.length = ⟨bytes, i + n, 0⟩
  decoded : ∀ {maxlen}, n + 2 ≤ maxlen →
    mbstowcsLoop maxlen bytes = (List.range' i n).map src

theorem encodes_nil (src : Nat → CoWchar) (i : Nat) : Encodes src i 0 [] where
  nonzero := List.not_mem_nil
  length := rfl
  written {turns} _ := by cases turns <;> rfl
  decoded {maxlen} _ := by cases maxlen <;> rfl

/-- One more unit in front: its bytes are in front of the others, in all four loops. -/
theorem encodes_cons {src : Nat → CoWchar} {i n : Nat} {unit bytes : CString}
    (start : src i ≠ 0) (first : EncodesUnit (src i) unit) (rest : Encodes src (i + 1) n bytes) :
    Encodes src i (n + 1) (unit ++ bytes) := by
  have pos := first.pos
  have le := first.le
  refine ⟨?_, ?_, ?_, ?_⟩
  · intro zero
    rcases List.mem_append.mp zero with zero | zero
    · exact first.nonzero zero
    · exact rest.nonzero zero
  · rw [wctowbstrlenLoop, if_neg start, first.written (by omega), List.length_append, rest.length]
  · intro turns enough
    rw [List.length_append] at enough ⊢
    obtain ⟨turns, rfl⟩ : ∃ t, turns = t + 1 := ⟨turns - 1, by omega⟩
    rw [wcstombsLoop, if_neg (by omega), if_neg start, first.written (Nat.le_add_right _ _)]
    simp only [Nat.add_sub_cancel_left]
    rw [rest.written (by omega)]
    simp [Nat.add_assoc, Nat.add_comm 1]
  · intro maxlen enough
    obtain ⟨maxlen, rfl⟩ : ∃ m, maxlen = m + 1 := ⟨maxlen - 1, by omega⟩
    obtain ⟨b, s, cons⟩ := List.exists_cons_of_length_pos pos
    have next : nextUnit (unit ++ bytes) (maxlen + 1) = (src i, unit.length) :=
      first.decoded (by omega)
    rw [cons, List.cons_append] at next ⊢
    rw [mbstowcsLoop, next, List.range'_succ, List.map_cons, ← List.cons_append,
      List.drop_left, rest.decoded (by omega)]

theorem exists_encodes {src : Nat → CoWchar} {n : Nat} (i : Nat)
    (nonzero : ∀ j, i ≤ j → j < i + n → src j ≠ 0) : ∃ bytes, Encodes src i n bytes := by
  induction n generalizing i with
  | zero => exact ⟨_, encodes_nil src i⟩
  | succ n ih =>
    have start : src i ≠ 0 := nonzero i (Nat.le_refl i) (by omega)
    obtain ⟨bytes, rest⟩ := ih (i + 1) (fun j le lt => nonzero j (by omega) (by omega))
    obtain ⟨unit, first⟩ := exists_encodesUnit start
    exact ⟨_, encodes_cons start first rest⟩

/-- `n` nonzero units fill the `co_utf8_wctowbstrlen` bytes and a NUL without a question mark and
without a look past the last of them, and decode to themselves. -/
theorem coUtf8Wcstombs_roundTrip (src : Nat → CoWchar) (n : Nat) (nonzero : ∀ i < n, src i ≠ 0) :
    ∃ bytes : CString, 0 ∉ bytes ∧ bytes.length = coUtf8Wctowbstrlen src n ∧
      coUtf8Wcstombs src (coUtf8Wctowbstrlen src n + 1) = ⟨bytes ++ [0], n, 0⟩ ∧
      ∀ maxlen, n + 2 ≤ maxlen →
        coUtf8Mbstowcs bytes maxlen = (List.range n).map src ++ [0] := by
  have nonzero' : ∀ j, 0 ≤ j → j < 0 + n → src j ≠ 0 := fun j _ lt => nonzero j (by omega)
  obtain ⟨bytes, encodes⟩ := exists_encodes 0 nonzero'
  have length : bytes.length = coUtf8Wctowbstrlen src n := encodes.length
  refine ⟨bytes, encodes.nonzero, length, ?_, ?_⟩
  · rw [coUtf8Wcstombs, Nat.add_sub_cancel, ← length, encodes.written (Nat.le_refl _),
      Nat.zero_add]
  · intro maxlen enough
    rw [coUtf8Mbstowcs, encodes.decoded enough, List.range_eq_range']

/-- "Aé€". -/
def mixedUnits (i : Nat) : CoWchar := [0x41, 0xE9, 0x20AC].getD i 0

theorem coUtf8Wcstombs_roundTrip_mixed :
    ∃ bytes : CString, 0 ∉ bytes ∧ bytes.length = coUtf8Wctowbstrlen mixedUnits 3 ∧
      coUtf8Wcstombs mixedUnits (coUtf8Wctowbstrlen mixedUnits 3 + 1) = ⟨bytes ++ [0], 3, 0⟩ ∧
      ∀ maxlen, 3 + 2 ≤ maxlen →
        coUtf8Mbstowcs bytes maxlen = (List.range 3).map mixedUnits ++ [0] :=
  coUtf8Wcstombs_roundTrip mixedUnits 3 (by decide)

end CoLinux
