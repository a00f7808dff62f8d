import CoLinux.User.MacAddress

/-!
# Options in fields (`split_comma_separated` of `user/config.c`)

An option such as `eth0=tuntap,"LAN 14",00:11:22:33:44:55` is cut at its commas, and each field goes
to a buffer of its own. A scan ends at a comma, at the end of the text or when the buffer is full,
and one more character is skipped then, whichever it was.
-/

namespace CoLinux

/-- The inner loop of `split_comma_separated`, with room for a number of characters: what is stored,
and where `source` stands at the end. -/
def scanField : Nat → Bool → CString → CString × CString
  | 0, _, source => ([], source)
  | _ + 1, _, [] => ([], [])
  | room + 1, quotationMarks, 34 :: 34 :: source =>
    let r := scanField room quotationMarks source
    (34 :: r.1, r.2)
  | room + 1, quotationMarks, 34 :: source => scanField (room + 1) (!quotationMarks) source
  | room + 1, quotationMarks, c :: source =>
    if c = 44 ∧ quotationMarks = false then ([], c :: source)
    else
      let r := scanField room quotationMarks source
      (c :: r.1, r.2)

/-- What the loop does for one buffer: where `source` stood, and the bytes written to the buffer. -/
structure CommaBuffer where
  source : CString
  buffer : CString
  deriving DecidableEq

/-- `split_comma_separated`, for an array of buffers of these sizes. -/
def splitCommaSeparated : List Nat → CString → List CommaBuffer
  | [], _ => []
  | size :: array, source =>
    let r := scanField (size - 1) false source
    ⟨source, r.1 ++ [0]⟩ :: splitCommaSeparated array (r.2.drop 1)

/-! ## Fields -/

/-- What a field is made of: a character, two quotes that stand for one, or a quote that begins or
ends a quoted part. -/
inductive FieldItem
  | char (c : UInt8)
  | doubled
  | quote
  deriving DecidableEq

/-- The characters of an item in the source. -/
def FieldItem.raw : FieldItem → CString
  | .char c => [c]
  | .doubled => [34, 34]
  | .quote => [34]

/-- The character that an item stands for. -/
def FieldItem.text : FieldItem → Option UInt8
  | .char c => some c
  | .doubled => some 34
  | .quote => none

/-- The first field of a source, and what is behind its comma. -/
def fieldItems : Bool → CString → List FieldItem × Option CString
  | _, [] => ([], none)
  | quoted, 34 :: 34 :: source =>
    let r := fieldItems quoted source
    (.doubled :: r.1, r.2)
  | quoted, 34 :: source =>
    let r := fieldItems (!quoted) source
    (.quote :: r.1, r.2)
  | quoted, c :: source =>
    if c = 44 ∧ quoted = false then ([], some source)
    else
      let r := fieldItems quoted source
      (.char c :: r.1, r.2)

/-- The text of a field. -/
def fieldText (items : List FieldItem) : CString := items.filterMap FieldItem.text

/-- The field in the source. -/
def fieldRaw (items : List FieldItem) : CString := items.flatMap FieldItem.raw

/-- The items behind the first characters of a text. -/
def itemsBehind : Nat → List FieldItem → List FieldItem
  | 0, items => items
  | _ + 1, [] => []
  | n + 1, .quote :: items => itemsBehind (n + 1) items
  | n + 1, _ :: items => itemsBehind n items

/-- Where the next field begins. -/
def nextField (source : CString) : CString := (fieldItems false source).2.getD []

/-- Where the field with a number begins. Fields that are missing are at the end of the source. -/
def fieldStart : Nat → CString → CString
  | 0, source => source
  | i + 1, source => fieldStart i (nextField source)

/-- A buffer is filled from its own field, with as much of its text as there is room for. -/
structure FieldStored (source : CString) (i size : Nat) (b : CommaBuffer) : Prop where
  start : b.source = fieldStart i source
  text : b.buffer = (fieldText (fieldItems false (fieldStart i source)).1).take (size - 1) ++ [0]
  bound : b.buffer.length ≤ size

/-- Every buffer holds its field. -/
def FieldsStored (array : List Nat) (source : CString) : Prop :=
  ∀ i size, array[i]? = some size →
    ∃ b, (splitCommaSeparated array source)[i]? = some b ∧ FieldStored source i size b

/-- Nothing of the first field is left when the buffer is full, or a single character at the end of
the source. -/
def FieldFits (size : Nat) (source : CString) : Prop :=
  itemsBehind (size - 1) (fieldItems false source).1 = [] ∨
    (fieldItems false source).2 = none ∧
      (fieldRaw (itemsBehind (size - 1) (fieldItems false source).1)).length = 1

/-- Every buffer has room for a NUL, and the field of every buffer but the last one fits. -/
def FieldsFit (array : List Nat) (source : CString) : Prop :=
  ∀ i size, array[i]? = some size →
    0 < size ∧ (i + 1 < array.length → FieldFits size (fieldStart i source))

/-! ## One field -/

/-- The comma and what is behind it. -/
def withComma : Option CString → CString
  | none => []
  | some source => 44 :: source

/-- A source is its first field and the others. -/
theorem fieldItems_source (quoted : Bool) (source : CString) :
    fieldRaw (fieldItems quoted source).1 ++ withComma (fieldItems quoted source).2 = source := by
  fun_induction fieldItems quoted source with
  | case1 => rfl
  | case2 quoted source r ih => exact congrArg (fun s => 34 :: 34 :: s) ih
  | case3 quoted source more r ih => exact congrArg (List.cons 34) ih
  | case4 quoted c source first second comma =>
    obtain ⟨rfl, -⟩ := comma
    rfl
  | case5 quoted c source first second plain r ih => exact congrArg (List.cons c) ih

/-- A scan stores as much of the text as there is room for, and stops behind it. -/
theorem scanField_eq (room : Nat) (quoted : Bool) (source : CString) :
    scanField room quoted source =
      ((fieldText (fieldItems quoted source).1).take room,
        fieldRaw (itemsBehind room (fieldItems quoted source).1) ++
          withComma (fieldItems quoted source).2) := by
  fun_induction scanField room quoted source with
  | case1 quoted source => rw [itemsBehind, fieldItems_source, List.take_zero]
  | case2 room quoted => rfl
  | case3 room quoted source r ih =>
    simp only [r, ih, fieldItems]
    rfl
  | case4 room quoted source more ih =>
    rw [ih, fieldItems]
    · rfl
    · exact more
  | case5 room quoted c source first second comma =>
    obtain ⟨rfl, rfl⟩ := comma
    rfl
  | case6 room quoted c source first second plain r ih =>
    rw [fieldItems, if_neg plain]
    · simp only [r, ih]
      rfl
    · exact first
    · exact second

theorem fieldRaw_pos (item : FieldItem) (items : List FieldItem) :
    1 ≤ (fieldRaw (item :: items)).length := by
  have one : 1 ≤ item.raw.length := by cases item <;> simp [FieldItem.raw]
  rw [fieldRaw, List.flatMap_cons, List.length_append]
  exact Nat.le_add_right_of_le one

/-- A field fits if the scan of the next one begins where the next field does. -/
theorem drop_scanField_iff (size : Nat) (source : CString) :
    (scanField (size - 1) false source).2.drop 1 = nextField source ↔ FieldFits size source := by
  have whole := fieldItems_source false source
  rw [scanField_eq, FieldFits, nextField]
  generalize itemsBehind (size - 1) (fieldItems false source).1 = left
  cases (fieldItems false source).2 with
  | none =>
    simp only [withComma, List.append_nil, Option.getD_none, true_and, List.drop_eq_nil_iff]
    constructor
    · intro short
      cases left with
      | nil => exact .inl rfl
      | cons item items => exact .inr (Nat.le_antisymm short (fieldRaw_pos item items))
    · rintro (rfl | one)
      · exact Nat.zero_le 1
      · exact Nat.le_of_eq one
  | some after =>
    simp only [withComma, Option.getD_some, reduceCtorEq, false_and, or_false]
    constructor
    · intro same
      cases left with
      | nil => rfl
      | cons item items =>
        -- the scan would be left at least one character before the next field
        have longer := fieldRaw_pos item items
        have lengths := congrArg List.length same
        rw [List.length_drop, List.length_append, List.length_cons] at lengths
        omega
    · rintro rfl
      rfl

/-! ## All fields -/

/-- A statement about the members of a list and their numbers, for the first and the others. -/
theorem forall_getElem?_cons {α : Type} {P : Nat → α → Prop} (a : α) (l : List α) :
    (∀ i b, (a :: l)[i]? = some b → P i b) ↔ P 0 a ∧ ∀ i b, l[i]? = some b → P (i + 1) b := by
  constructor
  · intro all
    exact ⟨all 0 a rfl, fun i b at' => all (i + 1) b at'⟩
  · rintro ⟨first, others⟩ i b at'
    cases i with
    | zero =>
      cases at'
      exact first
    | succ i => exact others i b at'

theorem fieldsStored_cons (size : Nat) (array : List Nat) (source : CString) :
    FieldsStored (size :: array) source ↔
      (0 < size ∧ (array ≠ [] → FieldFits size source)) ∧
        FieldsStored array (nextField source) := by
  rw [FieldsStored, forall_getElem?_cons]
  constructor
  · rintro ⟨⟨b, first, stored⟩, others⟩
    have nonempty : 0 < size := by
      have bound := stored.bound
      cases first
      rw [List.length_append, List.length_singleton] at bound
      omega
    cases array with
    | nil => exact ⟨⟨nonempty, fun some => absurd rfl some⟩, fun i size at' => nomatch at'⟩
    | cons size' array =>
      -- the second buffer tells where the first scan ended
      obtain ⟨b', second, stored'⟩ := others 0 size' rfl
      have fits : (scanField (size - 1) false source).2.drop 1 = nextField source := by
        cases second
        exact stored'.start
      refine ⟨⟨nonempty, fun _ => (drop_scanField_iff size source).mp fits⟩, fun i s at' => ?_⟩
      obtain ⟨b, third, stored⟩ := others i s at'
      refine ⟨b, ?_, stored.start, stored.text, stored.bound⟩
      rw [← fits]
      exact third
  · rintro ⟨⟨nonempty, fits⟩, others⟩
    refine ⟨⟨_, rfl, rfl, ?_, ?_⟩, fun i s at' => ?_⟩
    · rw [scanField_eq]
      rfl
    · rw [scanField_eq, List.length_append, List.length_singleton, List.length_take]
      omega
    · have some : array ≠ [] := List.ne_nil_of_mem (List.mem_of_getElem? at')
      obtain ⟨b, third, stored⟩ := others i s at'
      refine ⟨b, ?_, stored.start, stored.text, stored.bound⟩
      rw [← (drop_scanField_iff size source).mpr (fits some)] at third
      exact third

theorem fieldsFit_cons (size : Nat) (array : List Nat) (source : CString) :
    FieldsFit (size :: array) source ↔
      (0 < size ∧ (array ≠ [] → FieldFits size source)) ∧ FieldsFit array (nextField source) := by
  have others : 0 + 1 < (size :: array).length ↔ array ≠ [] := by
    rw [List.length_cons, Nat.add_lt_add_iff_right, List.length_pos_iff]
  rw [FieldsFit, forall_getElem?_cons, others]
  simp only [List.length_cons, Nat.add_lt_add_iff_right]
  rfl

/-- The buffers hold their fields if there is room for the NULs and no field but the last is longer
than its buffer. -/
theorem commaFields_stored_iff (array : List Nat) (source : CString) :
    FieldsStored array source ↔ FieldsFit array source := by
  induction array generalizing source with
  | nil => simp [FieldsStored, FieldsFit]
  | cons size array ih => rw [fieldsStored_cons, fieldsFit_cons, ih]

/-- A SCSI type that is longer than its buffer by a character: the character is skipped in place of
the comma, and the path is stored as the size. -/
theorem commaFields_stored_shifted :
    ¬ FieldsStored [10, 256, 16, 10] (CString.ofString "disk-image,root.fs,1024") := by
  intro all
  obtain ⟨b, third, stored⟩ := all 2 16 rfl
  have shifted : b.buffer = CString.ofString "root.fs" ++ [0] := by
    cases third
    decide +kernel
  rw [stored.text] at shifted
  exact absurd shifted (by decide +kernel)

/-- A quoted part keeps its comma, and two quotes are one. -/
example : splitCommaSeparated [8, 9, 18] (CString.ofString "ndis,\"LAN, 2\"\"\",x") =
    [⟨CString.ofString "ndis,\"LAN, 2\"\"\",x", CString.ofString "ndis" ++ [0]⟩,
      ⟨CString.ofString "\"LAN, 2\"\"\",x", CString.ofString "LAN, 2\"" ++ [0]⟩,
      ⟨CString.ofString "x", CString.ofString "x" ++ [0]⟩] := by decide +kernel

end CoLinux
