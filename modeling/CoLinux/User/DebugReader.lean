import CoLinux.Common.DebugRecord

/-!
# The reader of the debug log (`user/debug/main.c`)

`parse_tlv_buffer` goes from log record to log record, `parse_tlv` from sub-TLV to sub-TLV in one,
once for the attributes and once for the strings. Both go by the length bytes alone, and neither
looks whether a TLV ends inside what it is in.
-/

namespace CoLinux

open Lib

/-- The sub-TLVs that a loop of `parse_tlv` visits; `left` bytes are left up to
`&block[tlv->length]`. -/
def parseTlv (ptlv : ByteMem) (left : Nat) : List Tlv :=
  if left = 0 then []
  else
    let length := (ptlv 1).toNat
    ⟨ptlv 0, ptlv.slice 2 length⟩ :: parseTlv (ptlv.skip (2 + length)) (left - (2 + length))
termination_by left

/-- What `parse_tlv_buffer` gives to `parse_tlv`; the loop also ends where `size` gets negative. -/
def parseTlvBuffer (block : ByteMem) (size : Nat) : List (List Tlv) :=
  if size < 2 then []
  else
    let length := (block 1).toNat
    parseTlv (block.skip 2) length ::
      parseTlvBuffer (block.skip (2 + length)) (size - (2 + length))
termination_by size

/-! ## What the reader finds -/

theorem Tlv.length_encode (t : Tlv) : t.encode.length = 2 + t.value.length := by
  rw [Tlv.encode, List.length_cons, List.length_cons]
  omega

theorem toNat_length {t : Tlv} (short : t.value.length < 256) :
    (UInt8.ofNat t.value.length).toNat = t.value.length := by
  rw [UInt8.toNat_ofNat']
  exact Nat.mod_eq_of_lt short

/-- Sub-TLVs with right length bytes are read back. -/
theorem parseTlv_encode {tlvs : List Tlv} {ptlv : ByteMem}
    (short : ∀ t ∈ tlvs, t.value.length < 256)
    (starts : ptlv.StartsWith (tlvs.flatMap Tlv.encode)) :
    parseTlv ptlv (tlvs.flatMap Tlv.encode).length = tlvs := by
  induction tlvs generalizing ptlv with
  | nil =>
    rw [parseTlv]
    rfl
  | cons t tlvs ih =>
    rw [List.flatMap_cons] at starts ⊢
    obtain ⟨here, rest⟩ := ByteMem.startsWith_append.mp starts
    rw [Tlv.length_encode] at rest
    obtain ⟨type, here⟩ := ByteMem.startsWith_cons.mp here
    obtain ⟨length, value⟩ := ByteMem.startsWith_cons.mp here
    have byte : (ptlv 1).toNat = t.value.length :=
      (congrArg UInt8.toNat length).trans (toNat_length (short t List.mem_cons_self))
    have whole : ptlv.slice 2 t.value.length = t.value := by
      rw [ByteMem.skip_skip] at value
      exact (ptlv.slice_skip 2 0 _).symm.trans value
    rw [parseTlv, List.length_append, Tlv.length_encode, if_neg (by omega)]
    dsimp only
    rw [byte, type, whole, Nat.add_sub_cancel_left,
      ih (fun t' ht' => short t' (List.mem_cons_of_mem _ ht')) rest]

/-! ## Log records -/

/-- The length byte that the reader sees is the record's. -/
theorem recordLength_of_startsWith {r : List UInt8} {block : ByteMem}
    (record : tlvFraming.Record r) (starts : block.StartsWith r) :
    r.length = 2 + (block 1).toNat := by
  have byte : block 1 = r.getD 1 0 := by
    have same := block.ofList_slice (a := 0) (n := r.length) (i := 1) record.1
    rw [starts] at same
    exact ((congrArg block (Nat.zero_add 1)).symm.trans same.symm)
  rw [byte]
  exact record.2

/-- Records in front are passed one by one. -/
theorem parseTlvBuffer_records {records : List (List UInt8)} {block : ByteMem} {rest : List UInt8}
    (framed : ∀ r ∈ records, tlvFraming.Record r)
    (starts : block.StartsWith (records.flatten ++ rest)) :
    ∃ front : List (List Tlv), front.length = records.length ∧
      parseTlvBuffer block (records.flatten ++ rest).length =
        front ++ parseTlvBuffer (block.skip records.flatten.length) rest.length := by
  induction records generalizing block with
  | nil => exact ⟨[], rfl, by rw [List.flatten_nil, List.length_nil, ByteMem.skip_zero]; rfl⟩
  | cons r records ih =>
    rw [List.flatten_cons, List.append_assoc] at starts ⊢
    obtain ⟨here, later⟩ := ByteMem.startsWith_append.mp starts
    obtain ⟨front, same, parsed⟩ := ih (fun r' hr' => framed r' (List.mem_cons_of_mem _ hr')) later
    have length := recordLength_of_startsWith (framed r List.mem_cons_self) here
    refine ⟨parseTlv (block.skip 2) (block 1).toNat :: front, congrArg (· + 1) same, ?_⟩
    rw [parseTlvBuffer, if_neg (by rw [List.length_append]; omega)]
    dsimp only
    rw [← length, List.length_append, Nat.add_sub_cancel_left, parsed, ByteMem.skip_skip,
      List.length_append]
    rfl

/-- The record after others is read for itself. -/
theorem parseTlvBuffer_at {records : List (List UInt8)} {block : ByteMem} {r rest : List UInt8}
    {tlvs : List Tlv} (framed : ∀ r ∈ records, tlvFraming.Record r)
    (starts : block.StartsWith (records.flatten ++ (r ++ rest)))
    (record : r = coDebugTypeTlv :: UInt8.ofNat (tlvs.flatMap Tlv.encode).length ::
      tlvs.flatMap Tlv.encode)
    (short : ∀ t ∈ tlvs, t.value.length < 256) (small : (tlvs.flatMap Tlv.encode).length < 256) :
    (parseTlvBuffer block (records.flatten ++ (r ++ rest)).length)[records.length]? =
      some tlvs := by
  obtain ⟨front, same, parsed⟩ := parseTlvBuffer_records framed starts
  have here := (ByteMem.startsWith_append.mp (ByteMem.startsWith_append.mp starts).2).1
  rw [record] at here
  obtain ⟨-, here⟩ := ByteMem.startsWith_cons.mp here
  obtain ⟨length, value⟩ := ByteMem.startsWith_cons.mp here
  have byte : (block.skip records.flatten.length 1).toNat =
      (tlvs.flatMap Tlv.encode).length := by
    rw [show block.skip records.flatten.length 1 = _ from length, UInt8.toNat_ofNat']
    exact Nat.mod_eq_of_lt small
  have long : 2 ≤ (r ++ rest).length := by
    rw [record, List.length_append, List.length_cons, List.length_cons]
    omega
  rw [parsed, parseTlvBuffer, if_neg (by omega)]
  dsimp only
  rw [ByteMem.skip_skip] at value
  rw [byte, ← same, List.getElem?_append_right (Nat.le_refl _), Nat.sub_self,
    List.getElem?_cons_zero, parseTlv_encode short value]

end CoLinux
