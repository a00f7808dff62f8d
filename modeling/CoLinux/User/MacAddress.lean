import CoLinux.Common.Types
import CoLinux.Common.Unicode
import CoLinux.Lib.Numeral

/-!
# MAC addresses (`user/macaddress.c`)

The parser checks the length of the text and counts the conversions of `sscanf`. It stores what was
converted, and what was not, before it looks at the count.
-/

namespace CoLinux

open Lib

/-- The bytes of a text of the ASCII characters. -/
def CString.ofString (s : String) : CString := s.toList.map fun c => UInt8.ofNat c.toNat

/-- The conversion `%02x`: blanks, then a number of at most two characters. `0x` without a digit
is a failure. -/
def scanHexByte (s : CString) : Option (Nat × CString) :=
  let s := s.dropWhile (isBlank UInt8.toNat)
  match s.take 2 with
  | [48, 120] => none
  | [48, 88] => none
  | item =>
    (scanNumber UInt8.toNat 16 item).map fun n =>
      (if n.negative then (wordSize - n.value) % wordSize else n.value, n.rest ++ s.drop 2)

/-- `sscanf` with `n` conversions `%02x` and a colon between two: the values that are stored. -/
def sscanfMac : Nat → CString → List Nat
  | 0, _ => []
  | n + 1, s =>
    match scanHexByte s with
    | none => []
    | some (value, rest) =>
      value :: match rest with
        | 58 :: rest => sscanfMac n rest
        | _ => []

/-- `co_parse_mac_address`. `mac` holds what the stack held. -/
def coParseMacAddress (mac : Nat → Nat) (text : CString) (binary : List UInt8) :
    Step (List UInt8) :=
  if text.length ≠ 17 then (.invalidParameter, binary)
  else
    let got := sscanfMac 6 text
    let binary := (List.range 6).map fun i => UInt8.ofNat (got.getD i (mac i))
    if got.length ≠ 6 then (.invalidParameter, binary) else (.ok, binary)

/-- A digit of `%x`. -/
def hexDigit (n : Nat) : UInt8 := if n < 10 then UInt8.ofNat (48 + n) else UInt8.ofNat (87 + n)

/-- Groups of two characters with colons between them. -/
def joinGroups : List (UInt8 × UInt8) → CString
  | [] => []
  | [g] => [g.1, g.2]
  | g :: g' :: gs => g.1 :: g.2 :: 58 :: joinGroups (g' :: gs)

/-- The format of `co_build_mac_address`, with `%02x` for each byte. -/
def formatMac (mac : List UInt8) : CString :=
  joinGroups (mac.map fun b => (hexDigit (b.toNat / 16), hexDigit (b.toNat % 16)))

/-- `co_build_mac_address`, into a buffer of `ntext` bytes. -/
def coBuildMacAddress (ntext : Nat) (mac : List UInt8) : CString :=
  (formatMac mac).take (ntext - 1)

/-! ## What the parser has to do -/

/-- A character that is a hexadecimal digit. -/
abbrev HexDigit (c : UInt8) : Prop := isDigitOf UInt8.toNat 16 c = true

/-- Six groups of two hexadecimal digits with colons between them. -/
def MacText (text : CString) : Prop :=
  ∃ gs : List (UInt8 × UInt8), gs.length = 6 ∧ (∀ g ∈ gs, HexDigit g.1 ∧ HexDigit g.2) ∧
    text = joinGroups gs

/-- A text is accepted if it is an address, the address is read back after formatting it, and any
other text leaves the output as it was. -/
structure MacParsed (mac : Nat → Nat) (text : CString) (binary : List UInt8) : Prop where
  accepts : (coParseMacAddress mac text binary).1 = .ok ↔ MacText text
  readsBack : MacText text → ∀ ntext ≥ 18, ∀ mac' binary',
    coParseMacAddress mac' (coBuildMacAddress ntext (coParseMacAddress mac text binary).2) binary' =
      (.ok, (coParseMacAddress mac text binary).2)
  unchanged : ¬ MacText text → (coParseMacAddress mac text binary).2 = binary

/-! ## Groups -/

/-- The value of a digit. -/
abbrev hexValue (c : UInt8) : Nat := (digitValue UInt8.toNat c).getD 0

theorem forall_byte {p : UInt8 → Prop} (h : ∀ n < 256, p (UInt8.ofNat n)) (c : UInt8) : p c := by
  have := h c.toNat c.toNat_lt
  rwa [UInt8.ofNat_toNat] at this

theorem HexDigit.facts {c : UInt8} : HexDigit c → isBlank UInt8.toNat c = false ∧ c ≠ 120 ∧
    c ≠ 88 ∧ c.toNat ≠ 45 ∧ c.toNat ≠ 43 ∧ hexValue c < 16 := by
  revert c
  apply forall_byte
  decide +kernel

theorem hexDigit_spec : ∀ n < 16, HexDigit (hexDigit n) ∧ hexValue (hexDigit n) = n := by
  decide +kernel

/-- Two digits are read as a byte. -/
theorem scanHexByte_group {c d : UInt8} (hc : HexDigit c) (hd : HexDigit d) (rest : CString) :
    scanHexByte (c :: d :: rest) = some (16 * hexValue c + hexValue d, rest) := by
  obtain ⟨notBlank, -, -, notMinus, notPlus, -⟩ := hc.facts
  obtain ⟨-, notX, notX', -, -, -⟩ := hd.facts
  have skipped : (c :: d :: rest).dropWhile (isBlank UInt8.toNat) = c :: d :: rest := by
    rw [List.dropWhile_cons_of_neg (by simp [notBlank])]
  have number : scanNumber UInt8.toNat 16 [c, d] =
      some ⟨false, 16 * (16 * 0 + hexValue c) + hexValue d, []⟩ := by
    have start : [c, d].dropWhile (isBlank UInt8.toNat) = [c, d] := by
      rw [List.dropWhile_cons_of_neg (by simp [notBlank])]
    have digits : [c, d].takeWhile (isDigitOf UInt8.toNat 16) = [c, d] := by
      rw [List.takeWhile_cons_of_pos hc, List.takeWhile_cons_of_pos hd, List.takeWhile_nil]
    have none : [c, d].dropWhile (isDigitOf UInt8.toNat 16) = [] := by
      rw [List.dropWhile_cons_of_pos hc, List.dropWhile_cons_of_pos hd, List.dropWhile_nil]
    rw [scanNumber, start, takeSign, if_neg notMinus, if_neg notPlus]
    simp only [baseOf_of_ne UInt8.toNat (by decide : 16 ≠ 0), hexMark, Bool.false_eq_true,
      and_false, if_false, scanDigits, digits, none, List.cons_ne_nil]
    rfl
  unfold scanHexByte
  rw [skipped]
  simp only [List.take_succ_cons, List.take_zero, List.drop_succ_cons, List.drop_zero]
  split
  · rename_i h
    exact absurd (List.cons.inj (List.cons.inj h).2).1 notX
  · rename_i h
    exact absurd (List.cons.inj (List.cons.inj h).2).1 notX'
  · rw [number]
    simp

theorem sscanfMac_groups {n : Nat} {gs : List (UInt8 × UInt8)} (count : gs.length = n)
    (hex : ∀ g ∈ gs, HexDigit g.1 ∧ HexDigit g.2) :
    sscanfMac n (joinGroups gs) = gs.map fun g => 16 * hexValue g.1 + hexValue g.2 := by
  induction gs generalizing n with
  | nil =>
    subst count
    rfl
  | cons g gs ih =>
    subst count
    obtain ⟨first, later⟩ := List.forall_mem_cons.mp hex
    cases gs with
    | nil =>
      rw [joinGroups, List.length_singleton, sscanfMac, scanHexByte_group first.1 first.2]
      rfl
    | cons g' gs =>
      rw [joinGroups, List.length_cons, sscanfMac, scanHexByte_group first.1 first.2]
      exact congrArg _ (ih rfl later)

theorem joinGroups_length {gs : List (UInt8 × UInt8)} (h : gs ≠ []) :
    (joinGroups gs).length + 1 = 3 * gs.length := by
  induction gs with
  | nil => exact absurd rfl h
  | cons g gs ih =>
    cases gs with
    | nil => rfl
    | cons g' gs =>
      have := ih (List.cons_ne_nil _ _)
      simp only [joinGroups, List.length_cons] at this ⊢
      omega

/-! ## The parser -/

theorem MacText.length {text : CString} (h : MacText text) : text.length = 17 := by
  obtain ⟨gs, six, -, rfl⟩ := h
  have := joinGroups_length (List.ne_nil_of_length_pos (by omega : 0 < gs.length))
  omega

/-- The bytes of an address are stored. -/
theorem coParseMacAddress_groups {mac : Nat → Nat} {binary : List UInt8}
    {gs : List (UInt8 × UInt8)} (six : gs.length = 6)
    (hex : ∀ g ∈ gs, HexDigit g.1 ∧ HexDigit g.2) :
    coParseMacAddress mac (joinGroups gs) binary =
      (.ok, gs.map fun g => UInt8.ofNat (16 * hexValue g.1 + hexValue g.2)) := by
  have length : (joinGroups gs).length = 17 := MacText.length ⟨gs, six, hex, rfl⟩
  have values := sscanfMac_groups six hex
  have stored : ((List.range 6).map fun i => UInt8.ofNat
      ((gs.map fun g => 16 * hexValue g.1 + hexValue g.2).getD i (mac i))) =
      gs.map fun g => UInt8.ofNat (16 * hexValue g.1 + hexValue g.2) := by
    apply List.ext_getElem
    · simp [six]
    · intro i hi _
      simp at hi
      simp [six, hi]
  rw [coParseMacAddress, if_neg (not_not.mpr length)]
  simp only [values, List.length_map, six, ne_eq, not_true_eq_false, if_false, stored]

/-- An address is read back after formatting it. -/
theorem coParseMacAddress_readsBack {mac : Nat → Nat} {bytes binary : List UInt8} {ntext : Nat}
    (six : bytes.length = 6) (room : 18 ≤ ntext) :
    coParseMacAddress mac (coBuildMacAddress ntext bytes) binary = (.ok, bytes) := by
  have hex : ∀ g ∈ bytes.map fun b => (hexDigit (b.toNat / 16), hexDigit (b.toNat % 16)),
      HexDigit g.1 ∧ HexDigit g.2 := by
    intro g hg
    obtain ⟨b, -, rfl⟩ := List.mem_map.mp hg
    have := b.toNat_lt
    exact ⟨(hexDigit_spec _ (by omega)).1, (hexDigit_spec _ (by omega)).1⟩
  have count :
      (bytes.map fun b => (hexDigit (b.toNat / 16), hexDigit (b.toNat % 16))).length = 6 := by
    rw [List.length_map, six]
  have length : (formatMac bytes).length = 17 := MacText.length ⟨_, count, hex, rfl⟩
  rw [coBuildMacAddress, List.take_of_length_le (by omega), formatMac,
    coParseMacAddress_groups count hex, List.map_map]
  congr 1
  conv_rhs => rw [← List.map_id bytes]
  apply List.map_congr_left
  intro b _
  have := b.toNat_lt
  simp only [Function.comp_apply, (hexDigit_spec _ (by omega : b.toNat / 16 < 16)).2,
    (hexDigit_spec _ (by omega : b.toNat % 16 < 16)).2, Nat.div_add_mod, UInt8.ofNat_toNat, id_eq]

/-- An address is parsed as it has to be. -/
theorem MacText.parsed {text : CString} (address : MacText text) (mac : Nat → Nat)
    (binary : List UInt8) : MacParsed mac text binary := by
  obtain ⟨gs, six, hex, groups⟩ := id address
  have parsed := @coParseMacAddress_groups mac binary gs six hex
  rw [← groups] at parsed
  refine ⟨?_, fun _ ntext room mac' binary' => ?_, fun other => absurd address other⟩
  · rw [parsed]
    exact iff_of_true rfl address
  · rw [parsed]
    exact coParseMacAddress_readsBack (by rw [List.length_map, six]) room

/-- A text of another length is refused before anything is stored. -/
theorem macParsed_of_length {text : CString} (length : text.length ≠ 17) (mac : Nat → Nat)
    (binary : List UInt8) : MacParsed mac text binary := by
  have refused : coParseMacAddress mac text binary = (.invalidParameter, binary) := by
    rw [coParseMacAddress, if_pos length]
  have failed : CoRc.invalidParameter ≠ .ok := by decide
  refine ⟨?_, fun address => absurd address.length length, fun _ => ?_⟩
  · rw [refused]
    exact iff_of_false failed fun address => length address.length
  · rw [refused]

/-- Six bytes are written for a text of 17 characters, whatever the output holds. -/
theorem coParseMacAddress_stores {mac : Nat → Nat} {text : CString} {binary : List UInt8}
    (length : text.length = 17) :
    (coParseMacAddress mac text binary).2 =
      (List.range 6).map fun i => UInt8.ofNat ((sscanfMac 6 text).getD i (mac i)) := by
  rw [coParseMacAddress, if_neg (not_not.mpr length)]
  dsimp only
  split_ifs <;> rfl

/-- The parser does what it has to on every output and every stack if and only if the text has
another length than an address, or is one. -/
theorem coParseMacAddress_parsed_iff {text : CString} :
    (∀ mac binary, MacParsed mac text binary) ↔ text.length ≠ 17 ∨ MacText text := by
  constructor
  · intro parsed
    by_contra other
    obtain ⟨length, address⟩ := not_or.mp other
    -- an output that differs from what is stored
    have unchanged := (parsed (fun _ => 0) ((coParseMacAddress (fun _ => 0) text []).2.map
      (· + 1))).unchanged address
    rw [coParseMacAddress_stores (not_not.mp length),
      coParseMacAddress_stores (not_not.mp length)] at unchanged
    have first := congrArg (fun bytes => bytes.getD 0 0) unchanged
    simp [List.range_succ] at first
  · rintro (length | address)
    · exact macParsed_of_length length
    · exact address.parsed

/-- `1:2:3:4:5:6 12345` has 17 characters and is accepted. -/
theorem coParseMacAddress_acceptsShort :
    (coParseMacAddress (fun _ => 0) (CString.ofString "1:2:3:4:5:6 12345") [9, 9, 9, 9, 9, 9]).1 =
        .ok ∧
      ¬ MacParsed (fun _ => 0) (CString.ofString "1:2:3:4:5:6 12345") [9, 9, 9, 9, 9, 9] := by
  have accepted : (coParseMacAddress (fun _ => 0) (CString.ofString "1:2:3:4:5:6 12345")
      [9, 9, 9, 9, 9, 9]).1 = .ok := by
    decide +kernel
  refine ⟨accepted, fun parsed => ?_⟩
  obtain ⟨gs, six, hex, groups⟩ := parsed.accepts.mp accepted
  match gs, six with
  | [a, b, c, d, e, f], _ =>
    have := congrArg (fun s => s.getD 1 0) groups
    have digit := (hex a (by simp)).2
    have colon : a.2 = 58 := this.symm
    rw [colon] at digit
    exact absurd digit (by decide)

end CoLinux
