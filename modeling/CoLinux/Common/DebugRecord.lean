import CoLinux.Common.Types
import CoLinux.Lib.ByteMem
import CoLinux.Lib.Framing

/-!
# Debug records (`common/debug.h`, `common/debug.c`)

A record is a sequence of `co_debug_tlv_t`: a type byte, a length byte and as many bytes of value.
`co_debug_` lays the fields of a log line out in a buffer of 512 bytes. It stores each length as it
comes, modulo 256, and goes on behind as many bytes as the length byte says.
-/

namespace CoLinux

open Lib

/-- What `tlv_add_const_string` gets: the bytes of a C string before the NUL. -/
structure ConstString where
  bytes : List UInt8
  noNul : 0 ∉ bytes

namespace ConstString

/-- `co_strlen`. -/
def length (s : ConstString) : Nat := s.bytes.length

/-- What a `const char *` points to. -/
def mem (s : ConstString) : ByteMem := ByteMem.ofList s.bytes

/-- The value of a TLV that holds the string. -/
def value (s : ConstString) : List UInt8 := s.bytes ++ [0]

end ConstString

/-! ## `co_debug_type_t` -/

abbrev coDebugTypeTlv : UInt8 := 0
abbrev coDebugTypeTimestamp : UInt8 := 1
abbrev coDebugTypeString : UInt8 := 2
abbrev coDebugTypeModule : UInt8 := 3
abbrev coDebugTypeLocalIndex : UInt8 := 4
abbrev coDebugTypeFacility : UInt8 := 5
abbrev coDebugTypeLevel : UInt8 := 6
abbrev coDebugTypeLine : UInt8 := 7
abbrev coDebugTypeFunc : UInt8 := 8
abbrev coDebugTypeFile : UInt8 := 9
abbrev coDebugTypeDriverIndex : UInt8 := 10

/-- A type and a value. -/
structure Tlv where
  type : UInt8
  value : List UInt8
  deriving DecidableEq

/-- The bytes of a `co_debug_tlv_t` with that value. -/
def Tlv.encode (t : Tlv) : List UInt8 := t.type :: UInt8.ofNat t.value.length :: t.value

/-- The four bytes of an `unsigned long`. -/
def wordBytes (v : Nat) : List UInt8 := ByteMem.slice (ByteMem.wordByte v) 0 4

/-- The framing of the log: a type byte, a length byte and the sub-TLVs. -/
def tlvFraming : Framing UInt8 where
  header := 2
  body := fun xs => (xs.getD 1 0).toNat
  header_pos := Nat.two_pos
  body_append := fun _ ys h => congrArg UInt8.toNat (ByteMem.ofList_append ys h)

/-! ## The writer -/

/-- The buffer of `co_debug_` and the offset of `sub_tlv` in it. -/
structure SubTlv where
  buffer : ByteMem
  offset : Nat

namespace SubTlv

/-- `sub_tlv->type` and `sub_tlv->length`. -/
def setHeader (type : UInt8) (length : Nat) (w : SubTlv) : ByteMem :=
  w.buffer.copyBytes w.offset 2 (ByteMem.ofList [type, UInt8.ofNat length])

def tlvAddConstString (type : UInt8) (str : ConstString) (w : SubTlv) : SubTlv :=
  let length := (str.length + 1) % 256
  ⟨(w.setHeader type length).copyBytes (w.offset + 2) length str.mem, w.offset + 2 + length⟩

/-- `co_os_get_timestamp` stores the two words. -/
def tlvAddTimestamp (low high : Nat) (w : SubTlv) : SubTlv :=
  ⟨(w.setHeader coDebugTypeTimestamp 8).writeWords (w.offset + 2) 2 fun i =>
      if i = 0 then low else high,
    w.offset + 2 + 8⟩

def tlvAddUnsignedLong (type : UInt8) (data : Nat) (w : SubTlv) : SubTlv :=
  ⟨(w.setHeader type 4).writeWord (w.offset + 2) data, w.offset + 2 + 4⟩

/-- The body is that of `tlv_add_unsigned_long`. -/
def tlvAddChar (type : UInt8) (data : Nat) (w : SubTlv) : SubTlv :=
  w.tlvAddUnsignedLong type data

end SubTlv

/-- `co_vsnprintf`, for a format whose output is `text`: the bytes that fit, a NUL and the length of
the whole text. -/
def coVsnprintf (text : List UInt8) (str nmax : Nat) (mem : ByteMem) : Nat × ByteMem :=
  if nmax = 0 then (text.length, mem)
  else
    let put := text.take (nmax - 1)
    (text.length, mem.copyBytes str (put.length + 1) (ByteMem.ofList put))

/-- The arguments of `co_debug_`, the formatted text, the value of `co_debug_local_index` after the
increment and the time. -/
structure DebugCall where
  module : ConstString
  facility : Nat
  level : Nat
  filename : ConstString
  line : Nat
  func : ConstString
  text : List UInt8
  localIndex : Nat
  low : Nat
  high : Nat

namespace DebugCall

/-- The lines of `co_debug_` before the text. -/
def header (c : DebugCall) (stack : ByteMem) : SubTlv :=
  let subTlv : SubTlv := ⟨stack, 0⟩
  let subTlv := subTlv.tlvAddConstString coDebugTypeModule c.module
  let subTlv := subTlv.tlvAddConstString coDebugTypeFile c.filename
  let subTlv := subTlv.tlvAddTimestamp c.low c.high
  let subTlv := subTlv.tlvAddUnsignedLong coDebugTypeLocalIndex c.localIndex
  let subTlv := subTlv.tlvAddChar coDebugTypeFacility c.facility
  let subTlv := subTlv.tlvAddConstString coDebugTypeFunc c.func
  let subTlv := subTlv.tlvAddUnsignedLong coDebugTypeLine c.line
  subTlv.tlvAddChar coDebugTypeLevel c.level

/-- `co_debug_`: the buffer and the size that go to `co_debug_buf`. `stack` is what the buffer held
before. -/
def coDebug (c : DebugCall) (stack : ByteMem) : ByteMem × Nat :=
  let subTlv := c.header stack
  let value := subTlv.offset + 2
  let (count, buffer) := coVsnprintf c.text value (512 - value - 1) subTlv.buffer
  let length := (count + 1) % 256
  (SubTlv.setHeader coDebugTypeString length ⟨buffer, subTlv.offset⟩, value + length)

/-- What the fields of the log line are meant to look like in a record. -/
def subTlvs (c : DebugCall) : List Tlv :=
  [⟨coDebugTypeModule, c.module.value⟩, ⟨coDebugTypeFile, c.filename.value⟩,
    ⟨coDebugTypeTimestamp, wordBytes c.low ++ wordBytes c.high⟩,
    ⟨coDebugTypeLocalIndex, wordBytes c.localIndex⟩, ⟨coDebugTypeFacility, wordBytes c.facility⟩,
    ⟨coDebugTypeFunc, c.func.value⟩, ⟨coDebugTypeLine, wordBytes c.line⟩,
    ⟨coDebugTypeLevel, wordBytes c.level⟩, ⟨coDebugTypeString, c.text ++ [0]⟩]

/-- Every string fits a length byte, with its NUL. -/
def Short (c : DebugCall) : Prop :=
  c.module.length < 255 ∧ c.filename.length < 255 ∧ c.func.length < 255 ∧ c.text.length < 255

instance (c : DebugCall) : Decidable c.Short := inferInstanceAs (Decidable (_ ∧ _ ∧ _ ∧ _))

end DebugCall

/-! ## What the writer leaves in the buffer -/

/-- A list and the NUL behind it. -/
theorem slice_ofList_nul (xs : List UInt8) :
    (ByteMem.ofList xs).slice 0 (xs.length + 1) = xs ++ [0] := by
  have length : (xs ++ [0]).length = xs.length + 1 := by simp
  rw [← length]
  refine ByteMem.slice_eq fun i hi => ?_
  rw [Nat.zero_add, ByteMem.ofList, List.getElem_append]
  split_ifs with inside
  · simp [List.getD, inside]
  · have last : xs.length ≤ i := by omega
    simp [List.getD, List.getElem?_eq_none last]

namespace SubTlv

/-- The bytes that were written. -/
def bytes (w : SubTlv) : List UInt8 := w.buffer.slice 0 w.offset

theorem slice_put (w : SubTlv) (type : UInt8) (n : Nat) (src : ByteMem) :
    ((w.setHeader type n).copyBytes (w.offset + 2) n src).slice 0 (w.offset + 2 + n) =
      w.bytes ++ (Tlv.mk type (src.slice 0 n)).encode := by
  have before : ((w.setHeader type n).copyBytes (w.offset + 2) n src).slice 0 w.offset =
      w.bytes := by
    rw [ByteMem.slice_copyBytes_outside _ _ (.inl (by omega)), setHeader,
      ByteMem.slice_copyBytes_outside _ _ (.inl (by omega))]
    rfl
  have headed : ((w.setHeader type n).copyBytes (w.offset + 2) n src).slice w.offset 2 =
      [type, UInt8.ofNat n] := by
    rw [ByteMem.slice_copyBytes_outside _ _ (.inl (Nat.le_refl _)), setHeader,
      ByteMem.slice_copyBytes_inside]
    rfl
  rw [ByteMem.slice_add, ByteMem.slice_add, Nat.zero_add, Nat.zero_add, before, headed,
    ByteMem.slice_copyBytes_inside, List.append_assoc, Tlv.encode, ByteMem.length_slice]
  rfl

theorem bytes_constString (w : SubTlv) (type : UInt8) (str : ConstString) :
    (w.tlvAddConstString type str).bytes =
      w.bytes ++ (Tlv.mk type (str.mem.slice 0 ((str.length + 1) % 256))).encode :=
  w.slice_put type _ str.mem

theorem bytes_timestamp (w : SubTlv) (low high : Nat) :
    (w.tlvAddTimestamp low high).bytes =
      w.bytes ++ (Tlv.mk coDebugTypeTimestamp (wordBytes low ++ wordBytes high)).encode :=
  w.slice_put coDebugTypeTimestamp 8 (ByteMem.wordsBytes fun i => if i = 0 then low else high)

theorem bytes_unsignedLong (w : SubTlv) (type : UInt8) (data : Nat) :
    (w.tlvAddUnsignedLong type data).bytes =
      w.bytes ++ (Tlv.mk type (wordBytes data)).encode :=
  w.slice_put type 4 (ByteMem.wordsBytes fun _ => data)

end SubTlv

@[simp] theorem coVsnprintf_fst (text : List UInt8) (str nmax : Nat) (mem : ByteMem) :
    (coVsnprintf text str nmax mem).1 = text.length := by
  unfold coVsnprintf
  split_ifs <;> rfl

theorem slice_coVsnprintf_before (text : List UInt8) (mem : ByteMem) {str nmax n : Nat}
    (h : n ≤ str) : (coVsnprintf text str nmax mem).2.slice 0 n = mem.slice 0 n := by
  unfold coVsnprintf
  split_ifs
  · rfl
  · exact ByteMem.slice_copyBytes_outside _ _ (.inl (by omega))

/-- A text that fits is written whole. -/
theorem slice_coVsnprintf (text : List UInt8) (mem : ByteMem) {str nmax : Nat}
    (h : text.length < nmax) :
    (coVsnprintf text str nmax mem).2.slice str (text.length + 1) = text ++ [0] := by
  have fits : text.take (nmax - 1) = text := List.take_of_length_le (by omega)
  unfold coVsnprintf
  rw [if_neg (by omega)]
  dsimp only
  rw [fits, ByteMem.slice_copyBytes_inside, slice_ofList_nul]

namespace DebugCall

variable (c : DebugCall) (stack : ByteMem)

/-- A string as `tlv_add_const_string` stores it. -/
def storedString (str : ConstString) : List UInt8 := str.mem.slice 0 ((str.length + 1) % 256)

/-- The text as it is stored. -/
def storedText : List UInt8 :=
  (c.coDebug stack).1.slice ((c.header stack).offset + 2) ((c.text.length + 1) % 256)

/-- The sub-TLVs that `co_debug_` leaves in its buffer. -/
def written : List Tlv :=
  [⟨coDebugTypeModule, storedString c.module⟩, ⟨coDebugTypeFile, storedString c.filename⟩,
    ⟨coDebugTypeTimestamp, wordBytes c.low ++ wordBytes c.high⟩,
    ⟨coDebugTypeLocalIndex, wordBytes c.localIndex⟩, ⟨coDebugTypeFacility, wordBytes c.facility⟩,
    ⟨coDebugTypeFunc, storedString c.func⟩, ⟨coDebugTypeLine, wordBytes c.line⟩,
    ⟨coDebugTypeLevel, wordBytes c.level⟩, ⟨coDebugTypeString, c.storedText stack⟩]

theorem header_bytes :
    (c.header stack).bytes = (c.written stack).dropLast.flatMap Tlv.encode := by
  unfold header
  dsimp only
  unfold SubTlv.tlvAddChar
  rw [SubTlv.bytes_unsignedLong, SubTlv.bytes_unsignedLong, SubTlv.bytes_constString,
    SubTlv.bytes_unsignedLong, SubTlv.bytes_unsignedLong, SubTlv.bytes_timestamp,
    SubTlv.bytes_constString, SubTlv.bytes_constString]
  simp [written, storedString, SubTlv.bytes]

theorem coDebug_size :
    (c.coDebug stack).2 = (c.header stack).offset + 2 + (c.text.length + 1) % 256 := by
  unfold coDebug
  dsimp only
  rw [coVsnprintf_fst]

/-- The bytes that go to `co_debug_buf`. -/
theorem coDebug_bytes :
    (c.coDebug stack).1.slice 0 (c.coDebug stack).2 = (c.written stack).flatMap Tlv.encode := by
  have before : (c.coDebug stack).1.slice 0 (c.header stack).offset = (c.header stack).bytes := by
    unfold coDebug SubTlv.setHeader
    dsimp only
    rw [ByteMem.slice_copyBytes_outside _ _ (.inl (by omega)),
      slice_coVsnprintf_before _ _ (by omega)]
    rfl
  have headed : (c.coDebug stack).1.slice (c.header stack).offset 2 =
      [coDebugTypeString, UInt8.ofNat ((c.text.length + 1) % 256)] := by
    unfold coDebug SubTlv.setHeader
    dsimp only
    rw [ByteMem.slice_copyBytes_inside, coVsnprintf_fst]
    rfl
  have last : (c.written stack).flatMap Tlv.encode =
      (c.written stack).dropLast.flatMap Tlv.encode ++
        (Tlv.mk coDebugTypeString (c.storedText stack)).encode := by
    simp [written]
  rw [coDebug_size, ByteMem.slice_add, ByteMem.slice_add, Nat.zero_add, Nat.zero_add, before,
    headed, last, ← header_bytes, List.append_assoc, Tlv.encode, storedText, ByteMem.length_slice]
  rfl

/-- The offsets that the length bytes lead to are small. -/
theorem coDebug_size_lt : (c.coDebug stack).2 < 0x1000 := by
  have byte : ∀ n : Nat, n % 256 < 256 := fun n => Nat.mod_lt n (by decide)
  have m := byte (c.module.length + 1)
  have f := byte (c.filename.length + 1)
  have u := byte (c.func.length + 1)
  have t := byte (c.text.length + 1)
  rw [coDebug_size]
  unfold header SubTlv.tlvAddConstString SubTlv.tlvAddTimestamp SubTlv.tlvAddChar
    SubTlv.tlvAddUnsignedLong
  dsimp only
  omega

/-- A length byte that is the length of a string and its NUL. -/
theorem length_eq_iff (n : Nat) : (n + 1) % 256 = n + 1 ↔ n < 255 := by omega

theorem storedString_eq_iff (str : ConstString) : storedString str = str.value ↔ str.length < 255 := by
  rw [← length_eq_iff]
  constructor
  · intro same
    have lengths := congrArg List.length same
    rw [storedString, ByteMem.length_slice] at lengths
    rw [lengths, ConstString.value, List.length_append]
    rfl
  · intro whole
    unfold storedString
    rw [whole]
    exact slice_ofList_nul str.bytes

/-- In a record that is short enough for the log, the text is whole when its length byte is
right. -/
theorem storedText_eq_iff (small : (c.coDebug stack).2 ≤ 0xf8) :
    c.storedText stack = c.text ++ [0] ↔ c.text.length < 255 := by
  rw [coDebug_size] at small
  constructor
  · intro same
    have lengths := congrArg List.length same
    rw [storedText, ByteMem.length_slice, List.length_append] at lengths
    exact (length_eq_iff _).mp lengths
  · intro short
    have whole := (length_eq_iff _).mpr short
    unfold storedText
    rw [whole] at small ⊢
    unfold coDebug SubTlv.setHeader
    dsimp only
    rw [ByteMem.slice_copyBytes_outside _ _ (.inr (Nat.le_refl _)), slice_coVsnprintf]
    omega

/-- The record is right when every length byte is. -/
theorem written_eq_iff (small : (c.coDebug stack).2 ≤ 0xf8) :
    c.written stack = c.subTlvs ↔ c.Short := by
  simp only [written, subTlvs, Short, List.cons.injEq, Tlv.mk.injEq, true_and, and_true,
    storedString_eq_iff, c.storedText_eq_iff stack small]

theorem written_length (t : Tlv) (mem : t ∈ c.written stack) : t.value.length < 256 := by
  simp only [written, List.mem_cons, List.not_mem_nil, or_false] at mem
  have byte : ∀ n : Nat, n % 256 < 256 := fun n => Nat.mod_lt _ (by decide)
  rcases mem with rfl | rfl | rfl | rfl | rfl | rfl | rfl | rfl | rfl <;>
    simp [storedString, storedText, wordBytes, byte]

end DebugCall

end CoLinux
