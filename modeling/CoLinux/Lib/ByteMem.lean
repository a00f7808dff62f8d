import Mathlib.Algebra.Ring.Nat
import Mathlib.Data.List.Basic
import Mathlib.Tactic.SplitIfs
import Mathlib.Logic.Basic

/-!
# Byte memories

A byte-addressed memory with unbounded addresses, little-endian 32-bit words over it, and the
two bulk stores that table-building code uses: copying a byte source and filling an array of
words. Everything about a store is said by two kinds of lemma: what the stored range reads
back, and that every byte outside the range is untouched.
-/

namespace CoLinux.Lib

/-- A memory: one byte at each address. -/
abbrev ByteMem := Nat → UInt8

namespace ByteMem

/-- Byte `i` of the little-endian representation of `v`. -/
def wordByte (v i : Nat) : UInt8 := UInt8.ofNat (v / 256 ^ i)

/-- The little-endian 32-bit word at `a`. -/
def readWord (m : ByteMem) (a : Nat) : Nat :=
  (m a).toNat + 256 * (m (a + 1)).toNat + 65536 * (m (a + 2)).toNat +
    16777216 * (m (a + 3)).toNat

/-- The little-endian 16-bit number at `a`. -/
def readHalf (m : ByteMem) (a : Nat) : Nat := (m a).toNat + 256 * (m (a + 1)).toNat

/-- Stores the `n` words `f 0, f 1, ...` from address `a` on. -/
def writeWords (m : ByteMem) (a n : Nat) (f : Nat → Nat) : ByteMem := fun x =>
  if a ≤ x ∧ x < a + 4 * n then wordByte (f ((x - a) / 4)) ((x - a) % 4) else m x

/-- Stores one word. -/
def writeWord (m : ByteMem) (a v : Nat) : ByteMem := m.writeWords a 1 fun _ => v

/-- Stores the `n` bytes `src 0, src 1, ...` from address `a` on. -/
def copyBytes (m : ByteMem) (a n : Nat) (src : Nat → UInt8) : ByteMem := fun x =>
  if a ≤ x ∧ x < a + n then src (x - a) else m x

/-- The bytes of an array of words. -/
def wordsBytes (f : Nat → Nat) : Nat → UInt8 := fun i => wordByte (f (i / 4)) (i % 4)

theorem writeWords_outside (m : ByteMem) {a n x : Nat} (f : Nat → Nat)
    (h : x < a ∨ a + 4 * n ≤ x) : m.writeWords a n f x = m x := by
  unfold writeWords
  rw [if_neg (by omega)]

theorem writeWord_outside (m : ByteMem) {a x : Nat} (v : Nat) (h : x < a ∨ a + 4 ≤ x) :
    m.writeWord a v x = m x :=
  m.writeWords_outside _ (by omega)

theorem copyBytes_outside (m : ByteMem) {a n x : Nat} (src : Nat → UInt8)
    (h : x < a ∨ a + n ≤ x) : m.copyBytes a n src x = m x := by
  unfold copyBytes
  rw [if_neg (by omega)]

theorem copyBytes_inside (m : ByteMem) {a n x : Nat} (src : Nat → UInt8)
    (h : a ≤ x) (h' : x < a + n) : m.copyBytes a n src x = src (x - a) :=
  if_pos ⟨h, h'⟩

/-- A copy over a copy to the same range. -/
theorem copyBytes_copyBytes (m : ByteMem) (a n : Nat) (src src' : Nat → UInt8) :
    (m.copyBytes a n src).copyBytes a n src' = m.copyBytes a n src' := by
  funext x
  unfold copyBytes
  by_cases inside : a ≤ x ∧ x < a + n
  · rw [if_pos inside, if_pos inside]
  · rw [if_neg inside, if_neg inside, if_neg inside]

/-- Copying a range piece after piece. -/
theorem copyBytes_append (m : ByteMem) (a n k : Nat) (src : Nat → UInt8) :
    (m.copyBytes a n src).copyBytes (a + n) k (fun i => src (n + i)) =
      m.copyBytes a (n + k) src := by
  funext x
  unfold copyBytes
  by_cases inside : a ≤ x ∧ x < a + (n + k)
  · by_cases second : a + n ≤ x
    · rw [if_pos (by omega), if_pos inside]
      exact congrArg src (by omega)
    · rw [if_neg (by omega), if_pos (by omega), if_pos inside]
  · rw [if_neg (by omega), if_neg (by omega), if_neg inside]

/-- A store of words is a copy of the bytes of the words. -/
theorem copyBytes_wordsBytes (m : ByteMem) (a n : Nat) (f : Nat → Nat) :
    m.copyBytes a (4 * n) (wordsBytes f) = m.writeWords a n f := rfl

theorem readWord_congr {m m' : ByteMem} {a : Nat} (h : ∀ x, a ≤ x → x < a + 4 → m x = m' x) :
    m.readWord a = m'.readWord a := by
  unfold readWord
  rw [h a (by omega) (by omega), h (a + 1) (by omega) (by omega), h (a + 2) (by omega) (by omega),
    h (a + 3) (by omega) (by omega)]

/-- A word is the sum of its four bytes. -/
theorem wordByte_sum {v : Nat} (hv : v < 2 ^ 32) :
    (wordByte v 0).toNat + 256 * (wordByte v 1).toNat + 65536 * (wordByte v 2).toNat +
      16777216 * (wordByte v 3).toNat = v := by
  simp only [wordByte, UInt8.toNat_ofNat']
  omega

theorem readWord_writeWords (m : ByteMem) {a n i : Nat} {f : Nat → Nat} (hi : i < n)
    (hv : f i < 2 ^ 32) : (m.writeWords a n f).readWord (a + 4 * i) = f i := by
  have byte : ∀ j, j < 4 → m.writeWords a n f (a + 4 * i + j) = wordByte (f i) j := by
    intro j hj
    unfold writeWords
    rw [if_pos (by omega), show (a + 4 * i + j - a) / 4 = i by omega,
      show (a + 4 * i + j - a) % 4 = j by omega]
  have b0 := byte 0 (by omega)
  rw [Nat.add_zero] at b0
  unfold readWord
  rw [b0, byte 1 (by omega), byte 2 (by omega), byte 3 (by omega)]
  exact wordByte_sum hv

/-- Storing `n + 1` words is storing the first one and then the others. -/
theorem writeWords_succ (m : ByteMem) (a n : Nat) (f : Nat → Nat) :
    m.writeWords a (n + 1) f = (m.writeWord a (f 0)).writeWords (a + 4) n fun i => f (i + 1) := by
  funext x
  unfold writeWord writeWords
  by_cases inside : a ≤ x ∧ x < a + 4 * (n + 1)
  · by_cases first : x < a + 4
    · rw [if_pos inside, if_neg (by omega), if_pos (by omega), show (x - a) / 4 = 0 by omega]
    · rw [if_pos inside, if_pos (by omega), show (x - a) / 4 = (x - (a + 4)) / 4 + 1 by omega,
        show (x - a) % 4 = (x - (a + 4)) % 4 by omega]
  · rw [if_neg inside, if_neg (by omega), if_neg (by omega)]

theorem readWord_writeWord_self (m : ByteMem) (a : Nat) {v : Nat} (hv : v < 2 ^ 32) :
    (m.writeWord a v).readWord a = v :=
  m.readWord_writeWords (i := 0) (f := fun _ => v) Nat.one_pos hv

theorem readWord_writeWords_outside (m : ByteMem) {a n b : Nat} (f : Nat → Nat)
    (h : b + 4 ≤ a ∨ a + 4 * n ≤ b) : (m.writeWords a n f).readWord b = m.readWord b :=
  readWord_congr fun x _ _ => m.writeWords_outside f (by omega)

theorem readWord_writeWord_outside (m : ByteMem) {a b : Nat} (v : Nat)
    (h : b + 4 ≤ a ∨ a + 4 ≤ b) : (m.writeWord a v).readWord b = m.readWord b :=
  m.readWord_writeWords_outside _ (by omega)

theorem readWord_copyBytes_outside (m : ByteMem) {a n b : Nat} (src : Nat → UInt8)
    (h : b + 4 ≤ a ∨ a + n ≤ b) : (m.copyBytes a n src).readWord b = m.readWord b :=
  readWord_congr fun x _ _ => m.copyBytes_outside src (by omega)

/-! ## Slices -/

/-- The `n` bytes from address `a` on. -/
def slice (m : ByteMem) (a n : Nat) : List UInt8 := (List.range n).map fun i => m (a + i)

/-- A memory that holds the list `bs` from address 0 on. -/
def ofList (bs : List UInt8) : ByteMem := fun i => bs.getD i 0

@[simp] theorem length_slice (m : ByteMem) (a n : Nat) : (m.slice a n).length = n := by
  simp [slice]

@[simp] theorem slice_zero (m : ByteMem) (a : Nat) : m.slice a 0 = [] := rfl

theorem slice_add (m : ByteMem) (a n k : Nat) :
    m.slice a (n + k) = m.slice a n ++ m.slice (a + n) k := by
  simp only [slice, List.range_add, List.map_append, List.map_map]
  congr 1
  exact List.map_congr_left fun i _ => congrArg m (Nat.add_assoc a n i).symm

theorem slice_congr {m m' : ByteMem} {a b n : Nat} (h : ∀ i, i < n → m (a + i) = m' (b + i)) :
    m.slice a n = m'.slice b n :=
  List.map_congr_left fun i hi => h i (List.mem_range.mp hi)

theorem slice_eq {m : ByteMem} {a : Nat} {xs : List UInt8}
    (h : ∀ i (hi : i < xs.length), m (a + i) = xs[i]) : m.slice a xs.length = xs :=
  List.ext_getElem (by simp) fun i _ hi => by simpa [slice] using h i hi

theorem slice_take (m : ByteMem) (a : Nat) {n k : Nat} (h : k ≤ n) :
    (m.slice a n).take k = m.slice a k := by
  obtain ⟨j, rfl⟩ := Nat.exists_eq_add_of_le h
  rw [slice_add]
  exact List.take_left' (length_slice m a k)

theorem slice_drop (m : ByteMem) (a : Nat) {n k : Nat} (h : k ≤ n) :
    (m.slice a n).drop k = m.slice (a + k) (n - k) := by
  obtain ⟨j, rfl⟩ := Nat.exists_eq_add_of_le h
  rw [slice_add, Nat.add_sub_cancel_left]
  exact List.drop_left' (length_slice m a k)

theorem slice_copyBytes_inside (m : ByteMem) (a n : Nat) (src : ByteMem) :
    (m.copyBytes a n src).slice a n = src.slice 0 n := by
  apply slice_congr
  intro i hi
  rw [m.copyBytes_inside src (by omega) (by omega), Nat.zero_add, Nat.add_sub_cancel_left]

theorem slice_copyBytes_outside (m : ByteMem) {a n b k : Nat} (src : ByteMem)
    (h : b + k ≤ a ∨ a + n ≤ b) : (m.copyBytes a n src).slice b k = m.slice b k :=
  slice_congr fun _ _ => m.copyBytes_outside src (by omega)

/-- A copy to the end of what is looked at. -/
theorem slice_copyBytes_end (m : ByteMem) (a n : Nat) (src : ByteMem) :
    (m.copyBytes a n src).slice 0 (a + n) = m.slice 0 a ++ src.slice 0 n := by
  rw [slice_add, Nat.zero_add, slice_copyBytes_outside _ _ (.inl (by omega)),
    slice_copyBytes_inside]

theorem ofList_slice (m : ByteMem) {a n i : Nat} (h : i < n) :
    ofList (m.slice a n) i = m (a + i) := by
  simp [ofList, slice, List.getD, h]

theorem slice_inj {m m' : ByteMem} {a b n : Nat} (h : m.slice a n = m'.slice b n) {i : Nat}
    (hi : i < n) : m (a + i) = m' (b + i) := by
  rw [← m.ofList_slice hi, ← m'.ofList_slice hi, h]

theorem readWord_ofList_slice (m : ByteMem) {a n i : Nat} (h : i + 4 ≤ n) :
    (ofList (m.slice a n)).readWord i = m.readWord (a + i) := by
  unfold readWord
  rw [m.ofList_slice (by omega), m.ofList_slice (by omega), m.ofList_slice (by omega),
    m.ofList_slice (by omega)]
  simp only [Nat.add_assoc]

theorem ofList_append {xs : List UInt8} (ys : List UInt8) {i : Nat} (h : i < xs.length) :
    ofList (xs ++ ys) i = ofList xs i := by
  simp [ofList, List.getD, List.getElem?_append_left h]

theorem ofList_append_add (xs ys : List UInt8) (i : Nat) :
    ofList (xs ++ ys) (xs.length + i) = ofList ys i := by
  simp [ofList, List.getD, List.getElem?_append_right (Nat.le_add_right xs.length i)]

theorem readWord_ofList_append {xs : List UInt8} (ys : List UInt8) {i : Nat}
    (h : i + 4 ≤ xs.length) : (ofList (xs ++ ys)).readWord i = (ofList xs).readWord i :=
  readWord_congr fun x _ _ => ofList_append ys (by omega)

theorem readWord_lt (m : ByteMem) (a : Nat) : m.readWord a < 2 ^ 32 := by
  have b0 := (m a).toNat_lt
  have b1 := (m (a + 1)).toNat_lt
  have b2 := (m (a + 2)).toNat_lt
  have b3 := (m (a + 3)).toNat_lt
  unfold readWord
  omega

/-! ## Pointers into a memory -/

/-- The memory from address `n` on. -/
def skip (m : ByteMem) (n : Nat) : ByteMem := fun i => m (n + i)

@[simp] theorem skip_zero (m : ByteMem) : m.skip 0 = m :=
  funext fun i => congrArg m (Nat.zero_add i)

theorem skip_skip (m : ByteMem) (n k : Nat) : (m.skip n).skip k = m.skip (n + k) :=
  funext fun i => congrArg m (Nat.add_assoc n k i).symm

theorem slice_skip (m : ByteMem) (n a k : Nat) : (m.skip n).slice a k = m.slice (n + a) k :=
  List.map_congr_left fun i _ => congrArg m (Nat.add_assoc n a i).symm

theorem slice_ofList (xs : List UInt8) : (ofList xs).slice 0 xs.length = xs := by
  refine slice_eq fun i hi => ?_
  simp [ofList, List.getD, hi]

/-- A memory that starts with the bytes `xs`. -/
def StartsWith (m : ByteMem) (xs : List UInt8) : Prop := m.slice 0 xs.length = xs

theorem startsWith_append {m : ByteMem} {xs ys : List UInt8} :
    m.StartsWith (xs ++ ys) ↔ m.StartsWith xs ∧ (m.skip xs.length).StartsWith ys := by
  unfold StartsWith
  rw [List.length_append, slice_add, slice_skip, Nat.zero_add, Nat.add_zero]
  constructor
  · exact fun same => List.append_inj same (length_slice m 0 _)
  · rintro ⟨front, back⟩
    rw [front, back]

theorem startsWith_cons {m : ByteMem} {x : UInt8} {xs : List UInt8} :
    m.StartsWith (x :: xs) ↔ m 0 = x ∧ (m.skip 1).StartsWith xs := by
  have single : m.StartsWith [x] ↔ m 0 = x := by simp [StartsWith, slice]
  rw [← List.singleton_append, startsWith_append, single]
  rfl

end ByteMem

end CoLinux.Lib
