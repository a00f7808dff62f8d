import CoLinux.Lib.ByteMem

/-!
# The bytes of a file

A file is a length and the bytes below it. Behind the length every byte counts as 0: that is what a
reader finds there once the file has grown.
-/

namespace CoLinux.Lib

structure FileBytes where
  length : Nat
  bytes : ByteMem
  zero : ∀ x, length ≤ x → bytes x = 0

namespace FileBytes

variable {f g : FileBytes} {offset count n x : Nat} {data buffer : ByteMem}

theorem eq_of_bytes (length : f.length = g.length) (bytes : ∀ x, f.bytes x = g.bytes x) : f = g := by
  cases f
  cases g
  simp only [mk.injEq]
  exact ⟨length, funext bytes⟩

/-- What a read leaves in its buffer: behind the end of the file the buffer keeps its bytes. -/
def read (f : FileBytes) (offset count : Nat) (buffer : ByteMem) : ByteMem := fun i =>
  if i < count ∧ offset + i < f.length then f.bytes (offset + i) else buffer i

/-- A write behind the end leaves zeros in between. -/
def write (f : FileBytes) (offset count : Nat) (data : ByteMem) : FileBytes where
  length := if count = 0 then f.length else max f.length (offset + count)
  bytes := fun x => if offset ≤ x ∧ x < offset + count then data (x - offset) else f.bytes x
  zero := by
    intro x behind
    split at behind
    · rw [if_neg (by omega)]
      exact f.zero x behind
    · rw [if_neg (by omega)]
      exact f.zero x (by omega)

def setLength (f : FileBytes) (n : Nat) : FileBytes where
  length := n
  bytes := fun x => if x < n then f.bytes x else 0
  zero := fun _ behind => if_neg (Nat.not_lt.mpr behind)

/-- A read into a buffer that is clear behind the end of the file. -/
theorem read_eq {i : Nat} (inside : i < count)
    (clear : f.length ≤ offset + i → buffer i = 0) :
    f.read offset count buffer i = f.bytes (offset + i) := by
  unfold read
  by_cases short : offset + i < f.length
  · rw [if_pos ⟨inside, short⟩]
  · rw [if_neg (fun both => short both.2), clear (Nat.not_lt.mp short),
      f.zero _ (Nat.not_lt.mp short)]

@[simp] theorem write_zero : f.write offset 0 data = f :=
  eq_of_bytes rfl fun _ => if_neg (by omega)

theorem length_write (pos : count ≠ 0) :
    (f.write offset count data).length = max f.length (offset + count) := if_neg pos

theorem bytes_write : (f.write offset count data).bytes x =
    if offset ≤ x ∧ x < offset + count then data (x - offset) else f.bytes x := rfl

theorem bytes_write_outside (outside : x < offset ∨ offset + count ≤ x) :
    (f.write offset count data).bytes x = f.bytes x := by
  rw [bytes_write, if_neg (by omega)]

theorem bytes_write_inside (low : offset ≤ x) (high : x < offset + count) :
    (f.write offset count data).bytes x = data (x - offset) := by
  rw [bytes_write, if_pos ⟨low, high⟩]

/-- A write inside the file keeps its length. -/
theorem length_write_inside (inside : offset + count ≤ f.length) :
    (f.write offset count data).length = f.length := by
  simp only [write]
  split
  · rfl
  · exact Nat.max_eq_left inside

theorem bytes_setLength : (f.setLength n).bytes x = if x < n then f.bytes x else 0 := rfl

/-- Growing changes no byte. -/
theorem bytes_setLength_of_le (grown : f.length ≤ n) : (f.setLength n).bytes x = f.bytes x := by
  rw [bytes_setLength]
  split
  · rfl
  · exact (f.zero x (by omega)).symm

end FileBytes

end CoLinux.Lib
