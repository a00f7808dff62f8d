import CoLinux.Lib.ByteMem

/-!
# Texts that end in a NUL

A text is the bytes before the first NUL. The results say when memory holds a text, that it holds
only one at an address, and how a text grows by storing another at its end.
-/

namespace CoLinux.Lib

/-- Bytes without a NUL. -/
abbrev CText : Type := { s : List UInt8 // 0 ∉ s }

namespace ByteMem

/-- Store a text with its NUL. -/
def storeText (m : ByteMem) (a : Nat) (s : List UInt8) : ByteMem :=
  m.copyBytes a (s.length + 1) (ofList (s ++ [0]))

/-- The text and its NUL are in memory. -/
def TextAt (m : ByteMem) (a : Nat) (s : List UInt8) : Prop := m.slice a (s.length + 1) = s ++ [0]

theorem textAt_storeText (m : ByteMem) (a : Nat) (s : List UInt8) :
    TextAt (m.storeText a s) a s := by
  have whole := slice_ofList (s ++ [0])
  rw [List.length_append, List.length_singleton] at whole
  rw [TextAt, storeText, slice_copyBytes_inside, whole]

/-- A text grows by what is stored over its NUL. -/
theorem TextAt.append {m : ByteMem} {s : List UInt8} (h : m.TextAt 0 s) (t : List UInt8) :
    TextAt (m.storeText s.length t) 0 (s ++ t) := by
  have whole := slice_ofList (t ++ [0])
  have before := m.slice_take 0 (Nat.le_add_right s.length 1)
  rw [h, List.take_left] at before
  rw [List.length_append, List.length_singleton] at whole
  rw [TextAt, storeText, List.length_append, Nat.add_assoc, slice_copyBytes_end, whole, ← before,
    List.append_assoc]

/-- Memory holds one text at an address. -/
theorem TextAt.unique {m : ByteMem} {a : Nat} {s t : List UInt8} (hs : m.TextAt a s)
    (ht : m.TextAt a t) (noNul : 0 ∉ s) (noNul' : 0 ∉ t) : s = t := by
  -- the shorter text would have a NUL within the longer one
  have shorter : ∀ {u v : List UInt8}, m.TextAt a u → m.TextAt a v → 0 ∉ v →
      ¬ u.length < v.length := by
    intro u v hu hv noNul less
    have front := m.slice_take a (Nat.succ_le_succ (Nat.le_of_lt less))
    rw [hv, hu, List.take_append_of_le_length less] at front
    exact noNul (List.mem_of_mem_take (front ▸ List.mem_append_right u List.mem_cons_self))
  have same : s.length = t.length :=
    Nat.le_antisymm (Nat.not_lt.mp (shorter ht hs noNul)) (Nat.not_lt.mp (shorter hs ht noNul'))
  rw [TextAt, same, ht] at hs
  exact (List.append_cancel_right hs).symm

/-- A text is empty if memory holds a NUL at its address. -/
theorem TextAt.eq_nil_iff {m : ByteMem} {s : List UInt8} (h : m.TextAt 0 s) (noNul : 0 ∉ s) :
    m 0 = 0 ↔ s = [] := by
  cases s with
  | nil =>
    have := congrArg (fun l => l.getD 0 1) h
    simpa [slice] using this
  | cons b s =>
    have := congrArg (fun l => l.getD 0 1) h
    have first : m 0 = b := by simpa [slice] using this
    simp only [List.cons_ne_nil, iff_false, first]
    exact fun zero => noNul (zero ▸ List.mem_cons_self)

end ByteMem

end CoLinux.Lib
