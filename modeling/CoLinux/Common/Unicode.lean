import CoLinux.Common.Types
import Mathlib.Data.List.Basic
import Mathlib.Tactic.SplitIfs

/-!
# UTF-8 (`common/unicode.c`)

The conversions between byte strings and wide strings of 16-bit units. A byte string is the list
of its bytes before the NUL, a wide string is what lies at a pointer. All strings are shorter than
half the address space, so that the `int` lengths of the code do not wrap.
-/

namespace CoLinux

/-- The bytes of a C string before its NUL. -/
abbrev CString := List UInt8

/-- `co_wchar_t`. -/
abbrev CoWchar := UInt16

/-- A row of `utf8_table`. -/
structure Utf8Row where
  cmask : Nat
  cval : Nat
  shift : Nat
  lmask : Nat
  lval : Nat

def utf8Table : List Utf8Row :=
  [⟨0x80, 0x00, 0 * 6, 0x7F, 0⟩,
    ⟨0xE0, 0xC0, 1 * 6, 0x7FF, 0x80⟩,
    ⟨0xF0, 0xE0, 2 * 6, 0xFFFF, 0x800⟩,
    ⟨0xF8, 0xF0, 3 * 6, 0x1FFFFF, 0x10000⟩,
    ⟨0xFC, 0xF8, 4 * 6, 0x3FFFFFF, 0x200000⟩,
    ⟨0xFE, 0xFC, 5 * 6, 0x7FFFFFFF, 0x4000000⟩]

/-- The byte a pointer into a C string points to. -/
def CString.at0 (s : CString) : Nat := (s.head?.getD 0).toNat

/-- The loop of `utf8_mbtowc`: `s` is what follows the byte that was read last. The unit is what
the 16 bits of `*p` keep of the character. -/
def mbtowcLoop (c0 n : Nat) : List Utf8Row → Nat → Nat → CString → Option (CoWchar × Nat)
  | [], _, _, _ => none
  | t :: rows, nc, l, s =>
    if c0 &&& t.cmask = t.cval then
      if l &&& t.lmask < t.lval then none else some (UInt16.ofNat (l &&& t.lmask), nc + 1)
    else if n ≤ nc + 1 then none
    else if (s.at0 ^^^ 0x80) &&& 0xC0 ≠ 0 then none
    else mbtowcLoop c0 n rows (nc + 1) (l <<< 6 ||| (s.at0 ^^^ 0x80)) s.tail

/-- `utf8_mbtowc`: the unit and the number of its bytes. -/
def utf8Mbtowc (s : CString) (n : Nat) : Option (CoWchar × Nat) :=
  mbtowcLoop s.at0 n utf8Table 0 s.at0 s.tail

/-- The bytes that follow the first one: `shift` drops by 6 for each. -/
def contBytes (l : Nat) : Nat → List UInt8
  | 0 => []
  | k + 1 => UInt8.ofNat (0x80 ||| (l >>> (6 * k) &&& 0x3F)) :: contBytes l k

/-- The loop of `utf8_wctomb`. -/
def wctombLoop (l : Nat) : List Utf8Row → Nat → Option (List UInt8)
  | [], _ => none
  | _ :: _, 0 => none
  | t :: rows, maxlen + 1 =>
    if l ≤ t.lmask then
      some (UInt8.ofNat (t.cval ||| l >>> t.shift) :: contBytes l (t.shift / 6))
    else wctombLoop l rows maxlen

/-- `utf8_wctomb`: the bytes it stores. -/
def utf8Wctomb (wc : CoWchar) (maxlen : Nat) : Option (List UInt8) :=
  wctombLoop wc.toNat utf8Table maxlen

/-- `'?'`. -/
abbrev questionMark : Nat := 0x3F

/-! ## From bytes to units -/

/-- What the loops over a byte string make of the bytes at hand: the next unit and the number of
bytes it takes. `n` is the limit they pass on to `utf8_mbtowc`. -/
def nextUnit (s : CString) (n : Nat) : CoWchar × Nat :=
  if 0x80 ≤ s.at0 then
    match utf8Mbtowc s n with
    | none => (UInt16.ofNat questionMark, 1)
    | some unit => unit
  else (UInt16.ofNat s.at0, 1)

/-- The loop of `co_utf8_mbstrlen` with a bound on its turns; `maxlen` is the number of bytes
left. -/
def mbstrlenLoop : Nat → CString → Nat
  | 0, _ => 0
  | _ + 1, [] => 0
  | turns + 1, b :: s =>
    mbstrlenLoop turns ((b :: s).drop (nextUnit (b :: s) (b :: s).length).2) + 1

/-- `co_utf8_mbstrlen`. Every turn takes a byte. -/
def coUtf8Mbstrlen (src : CString) : Nat := mbstrlenLoop src.length src

/-- The loop of `co_utf8_mbstowcs`, whose limit on the units is its limit on the bytes of a
sequence, too. -/
def mbstowcsLoop : Nat → CString → List CoWchar
  | 0, _ => []
  | _ + 1, [] => []
  | maxlen + 1, b :: s =>
    (nextUnit (b :: s) (maxlen + 1)).1 ::
      mbstowcsLoop maxlen ((b :: s).drop (nextUnit (b :: s) (maxlen + 1)).2)

/-- `co_utf8_mbstowcs`: the units it stores. -/
def coUtf8Mbstowcs (src : CString) (maxlen : Nat) : List CoWchar := mbstowcsLoop maxlen src ++ [0]

/-- `co_utf8_dup_to_wc`: the units of the buffer and `*size_out`. -/
def coUtf8DupToWc (granted : Bool) (src : CString) : Except CoRc (List CoWchar × Nat) :=
  if granted then .ok (coUtf8Mbstowcs src (coUtf8Mbstrlen src + 1), coUtf8Mbstrlen src)
  else .error .outOfMemory

/-! ## From units to bytes -/

/-- The bytes the loops over a wide string make of a unit, with room for `maxlen`. -/
def unitBytes (wc : CoWchar) (maxlen : Nat) : Option (List UInt8) :=
  if 0x7F < wc.toNat then utf8Wctomb wc maxlen else some [UInt8.ofNat wc.toNat]

/-- `co_utf8_wctowbstrlen`, from unit `i` on. -/
def wctowbstrlenLoop (src : Nat → CoWchar) : Nat → Nat → Nat
  | 0, _ => 0
  | maxlen + 1, i =>
    if src i = 0 then 0
    else
      (match unitBytes (src i) 8 with
        | none => 1
        | some bytes => bytes.length) + wctowbstrlenLoop src maxlen (i + 1)

def coUtf8Wctowbstrlen (src : Nat → CoWchar) (maxlen : Nat) : Nat := wctowbstrlenLoop src maxlen 0

/-- What `co_utf8_wcstombs` does: the bytes it stores, the number of units it reads and how often
it puts a `'?'`. -/
structure Wcstombs where
  bytes : List UInt8
  read : Nat
  marks : Nat

/-- The loop of `co_utf8_wcstombs` from unit `i` on, with a bound on its turns. -/
def wcstombsLoop (src : Nat → CoWchar) : Nat → Nat → Nat → Wcstombs
  | 0, i, _ => ⟨[], i, 0⟩
  | turns + 1, i, maxlen =>
    if maxlen = 0 then ⟨[], i, 0⟩
    else if src i = 0 then ⟨[], i + 1, 0⟩
    else
      match unitBytes (src i) maxlen with
      | none =>
        let r := wcstombsLoop src turns (i + 1) (maxlen - 1)
        ⟨UInt8.ofNat questionMark :: r.bytes, r.read, r.marks + 1⟩
      | some bytes =>
        let r := wcstombsLoop src turns (i + 1) (maxlen - bytes.length)
        ⟨bytes ++ r.bytes, r.read, r.marks⟩

/-- `co_utf8_wcstombs`, with its NUL. Every turn takes some of the `maxlen - 1` bytes. -/
def coUtf8Wcstombs (src : Nat → CoWchar) (maxlen : Nat) : Wcstombs :=
  let r := wcstombsLoop src (maxlen - 1) 0 (maxlen - 1)
  { r with bytes := r.bytes ++ [0] }

end CoLinux
