import CoLinux.User.ElfReader

/-!
# Images that the reader can be given (`user/elf_load.c`)

`ImageInside` lists what has to lie in the file so that nothing else is read: the headers, names and
symbols that the searches come to, and the contents of the sections that are loaded. The results say
what each function reads, and that exactly these images are read, or rejected, without leaving the
buffer.
-/

namespace CoLinux

open Lib

namespace ElfBuffer

/-! ## What has to be inside -/

variable (pl : ElfBuffer)

/-- What is read lies in the buffer. -/
def Inside (r : Nat × Nat) : Prop := r.2 ≠ 0 → pl.buffer ≤ r.1 ∧ r.1 + r.2 ≤ pl.buffer + pl.size

/-- The address of an offset in a section. -/
def offsetAddress (shdr index : Nat) : Nat :=
  (pl.buffer + (pl.mem.readWord (shdr + 16) + index) % wordSize) % wordSize

/-- A text is compared with a name up to the first byte that differs. -/
def TextInside (text : Nat) (name : CText) : Prop :=
  ∀ k ≤ name.val.length, pl.mem.slice text k = name.val.take k → pl.Inside (text + k, 1)

def eShstrndx : Nat := pl.mem.readHalf (pl.buffer + 50)

def IsElf : Prop := pl.mem.slice pl.buffer 4 = [0x7f, 0x45, 0x4c, 0x46]

/-- The header of the section that holds the names of the sections. -/
def names : Nat := pl.toCoElfData.coGetSectionHeader pl.eShstrndx

/-- Where the name of a section is. -/
def sectionName (index : Nat) : Nat :=
  pl.offsetAddress pl.names (pl.mem.readWord (pl.toCoElfData.coGetSectionHeader index))

/-- No section before this one has the name. -/
def SectionUnnamed (name : CText) (index : Nat) : Prop :=
  ∀ j, 1 ≤ j → j < index → ¬ pl.mem.TextAt (pl.sectionName j) name.val

/-- The first section of a name. -/
def FirstSection (name : CText) (index : Nat) : Prop :=
  1 ≤ index ∧ index < pl.eShnum ∧ pl.SectionUnnamed name index ∧
    pl.mem.TextAt (pl.sectionName index) name.val

/-- Where the search for a section comes, there is a header, and a name in the table of names. -/
def SectionsInside (name : CText) : Prop :=
  ∀ i, 1 ≤ i → i < pl.eShnum → pl.SectionUnnamed name i →
    pl.Inside (pl.toCoElfData.coGetSectionHeader i, 4) ∧ pl.Inside (pl.names + 16, 4) ∧
      pl.TextInside (pl.sectionName i) name

/-- An ELF image with a table of section names, a `.strtab` and a `.symtab`. -/
def Accepts (tables : ElfTables) : Prop :=
  pl.IsElf ∧ pl.names ≠ 0 ∧ ∃ i j, pl.FirstSection strtabName i ∧ pl.FirstSection symtabName j ∧
    tables = ⟨pl.names, pl.toCoElfData.coGetSectionHeader i, pl.toCoElfData.coGetSectionHeader j⟩

variable (tables : ElfTables)

/-- Where a symbol and its name are. -/
def symbolAt (index : Nat) : Nat :=
  pl.offsetAddress tables.symbolTableSection (index * sizeofElf32Sym)
def symbolName (index : Nat) : Nat :=
  pl.offsetAddress tables.stringTableSection (pl.mem.readWord (pl.symbolAt tables index))

def symbolCount : Nat := pl.mem.readWord (tables.symbolTableSection + 20) / sizeofElf32Sym

/-- No symbol before this one has the name. -/
def SymbolUnnamed (name : CText) (index : Nat) : Prop :=
  ∀ j < index, ¬ pl.mem.TextAt (pl.symbolName tables j) name.val

/-- Where the search for a symbol comes, there is a symbol, and a name in the table of strings. -/
def SymbolsInside (name : CText) : Prop :=
  ∀ i < pl.symbolCount tables, pl.SymbolUnnamed tables name i →
    pl.Inside (tables.symbolTableSection + 16, 4) ∧ pl.Inside (pl.symbolAt tables i, 4) ∧
      pl.Inside (tables.stringTableSection + 16, 4) ∧
        pl.TextInside (pl.symbolName tables i) name

/-- A symbol that is found has a value, and a section with an address. -/
def OffsetsInside (name : CText) : Prop :=
  ∀ i < pl.symbolCount tables, pl.SymbolUnnamed tables name i →
    pl.mem.TextAt (pl.symbolName tables i) name.val →
      pl.Inside (pl.symbolAt tables i + 14, 2) ∧ pl.Inside (pl.symbolAt tables i + 4, 4) ∧
        pl.Inside (pl.toCoElfData.coGetSectionHeader
          (pl.mem.readHalf (pl.symbolAt tables i + 14)) + 12, 4)

/-- Where the contents of a section are, if it has some to be copied. -/
def contentsAt (index : Nat) : Nat :=
  if (pl.toCoElfData.sectionAt index).shType = shtNobits then 0
  else pl.offsetAddress (pl.toCoElfData.coGetSectionHeader index) 0

/-- A section that is loaded has a header, and contents if they are to be copied. -/
def ContentsInside (index : Nat) : Prop :=
  let shdr := pl.toCoElfData.coGetSectionHeader index
  let s := pl.toCoElfData.sectionAt index
  pl.Inside (shdr + 8, 4) ∧ (s.Alloc → pl.Inside (shdr + 4, 4) ∧
    (s.shType ≠ shtNobits → pl.Inside (shdr + 16, 4)) ∧ pl.Inside (shdr + 12, 4) ∧
      pl.Inside (shdr + 20, 4) ∧
        (pl.contentsAt index ≠ 0 → pl.Inside (pl.contentsAt index, s.shSize)))

/-- All that is looked at lies in the file. -/
structure ImageInside : Prop where
  ident : 4 ≤ pl.size
  header : pl.IsElf → sizeofElf32Ehdr ≤ pl.size
  strtab : pl.IsElf → pl.names ≠ 0 → pl.SectionsInside strtabName
  symtab : pl.IsElf → pl.names ≠ 0 → ∀ i, pl.FirstSection strtabName i →
    pl.SectionsInside symtabName
  symbols : ∀ tables, pl.Accepts tables → pl.Inside (tables.symbolTableSection + 20, 4) ∧
    ∀ name, pl.SymbolsInside tables name
  offsets : ∀ tables, pl.Accepts tables → ∀ name, pl.OffsetsInside tables name
  sections : ∀ tables, pl.Accepts tables → ∀ i, 1 ≤ i → i < pl.eShnum → pl.ContentsInside i

/-- What is read for an image that was accepted lies in the buffer. -/
structure UsesInside : Prop where
  lookups : ∀ name, (pl.lookup tables name).All pl.Inside
  load : ∀ host, (pl.coElfImageLoad host).All pl.Inside

/-- The reader reads the buffer only, and accepts no image that would take it elsewhere later. -/
structure Robust : Prop where
  read : ∀ malloc, (pl.coElfImageRead malloc).All pl.Inside
  accepted : ∀ malloc tables, (pl.coElfImageRead malloc).value = .ok tables → pl.UsesInside tables

/-! ## Texts -/

variable {pl} {tables : ElfTables} {name : CText}

theorem slice_cons (m : ByteMem) (a k : Nat) : m.slice a (k + 1) = m a :: m.slice (a + 1) k := by
  have first : m.slice a 1 = [m a] := rfl
  rw [Nat.add_comm, ByteMem.slice_add, first, List.singleton_append]

theorem all_strcmpFrom {text : Nat} {s : List UInt8} :
    (pl.strcmpFrom text s).All pl.Inside ↔
      ∀ k ≤ s.length, pl.mem.slice text k = s.take k → pl.Inside (text + k, 1) := by
  induction s generalizing text with
  | nil =>
    rw [strcmpFrom, Traced.all_bind, byte, Traced.all_read]
    constructor
    · rintro ⟨first, -⟩ k short same
      cases Nat.le_zero.mp short
      exact first
    · intro all
      exact ⟨all 0 (Nat.le_refl 0) rfl, Traced.all_pure _⟩
  | cons d s ih =>
    rw [strcmpFrom, Traced.all_bind, byte, Traced.all_read, Traced.value_read]
    constructor
    · rintro ⟨first, rest⟩ k short same
      cases k with
      | zero => exact first
      | succ k =>
        rw [slice_cons, List.take_succ_cons] at same
        obtain ⟨head, tail⟩ := List.cons.inj same
        rw [if_pos head] at rest
        have inside := ih.mp rest k (Nat.le_of_succ_le_succ short) tail
        rwa [Nat.add_right_comm] at inside
    · intro all
      refine ⟨all 0 (Nat.zero_le _) rfl, ?_⟩
      by_cases head : pl.mem text = d
      · rw [if_pos head]
        refine ih.mpr fun k short same => ?_
        rw [Nat.add_right_comm]
        apply all (k + 1) (Nat.succ_le_succ short)
        rw [slice_cons, List.take_succ_cons, head, same]
      · rw [if_neg head]
        exact Traced.all_pure _

theorem all_strcmp {text : Nat} : (pl.strcmp text name).All pl.Inside ↔ pl.TextInside text name :=
  all_strcmpFrom

theorem value_strcmpFrom {text : Nat} {s : List UInt8} :
    (pl.strcmpFrom text s).value = true ↔ pl.mem.TextAt text s := by
  induction s generalizing text with
  | nil =>
    rw [strcmpFrom, Traced.value_bind, byte, Traced.value_read, ByteMem.TextAt, List.length_nil,
      slice_cons, List.nil_append, List.cons.injEq]
    exact decide_eq_true_iff.trans (and_iff_left rfl).symm
  | cons d s ih =>
    rw [strcmpFrom, Traced.value_bind, byte, Traced.value_read, ByteMem.TextAt, List.length_cons,
      slice_cons, List.cons_append, List.cons.injEq]
    by_cases head : pl.mem text = d
    · rw [if_pos head, ih, ByteMem.TextAt]
      exact (and_iff_right head).symm
    · rw [if_neg head]
      exact iff_of_false Bool.false_ne_true fun same => head same.1

theorem value_strcmp {text : Nat} :
    (pl.strcmp text name).value = true ↔ pl.mem.TextAt text name.val := value_strcmpFrom

/-! ## Sections -/

theorem inside_header (header : sizeofElf32Ehdr ≤ pl.size) {a n : Nat}
    (field : a + n ≤ sizeofElf32Ehdr) : pl.Inside (pl.buffer + a, n) := by
  intro some
  simp only
  omega

theorem all_coGetSectionHeader (header : sizeofElf32Ehdr ≤ pl.size) (index : Nat) :
    (pl.coGetSectionHeader index).All pl.Inside := by
  simp only [coGetSectionHeader, word, half, Traced.all_bind, Traced.all_read, Traced.all_pure,
    and_true]
  exact ⟨inside_header header (by decide), inside_header header (by decide)⟩

theorem value_coGetSectionHeader (index : Nat) :
    (pl.coGetSectionHeader index).value = pl.toCoElfData.coGetSectionHeader index := rfl

theorem all_coGetAtOffset (shdr index : Nat) :
    (pl.coGetAtOffset shdr index).All pl.Inside ↔ pl.Inside (shdr + 16, 4) := by
  simp [coGetAtOffset, word]

theorem value_coGetAtOffset (shdr index : Nat) :
    (pl.coGetAtOffset shdr index).value = pl.offsetAddress shdr index := rfl

theorem all_trySection (header : sizeofElf32Ehdr ≤ pl.size) (index : Nat) :
    (pl.trySection pl.names name index).All pl.Inside ↔
      pl.Inside (pl.toCoElfData.coGetSectionHeader index, 4) ∧ pl.Inside (pl.names + 16, 4) ∧
        pl.TextInside (pl.sectionName index) name := by
  simp only [trySection, Traced.all_bind, Traced.all_pure, and_true, all_coGetAtOffset, all_strcmp,
    word, Traced.all_read, all_coGetSectionHeader header index, true_and, value_coGetSectionHeader,
    Traced.value_read, value_coGetAtOffset]
  rfl

theorem value_trySection (index : Nat) :
    (pl.trySection pl.names name index).value =
      if (pl.strcmp (pl.sectionName index) name).value
        then some (pl.toCoElfData.coGetSectionHeader index) else none := rfl

theorem tried_sections (index : Nat) :
    Traced.Tried (pl.trySection pl.names name) 1 index ↔ pl.SectionUnnamed name index := by
  refine forall_congr' fun j => imp_congr_right fun _ => imp_congr_right fun _ => ?_
  rw [value_trySection, ← value_strcmp]
  split
  · next same => simp [same]
  · next other => simp [other]

theorem all_coGetSectionByName (header : sizeofElf32Ehdr ≤ pl.size) :
    (pl.coGetSectionByName pl.names name).All pl.Inside ↔ pl.SectionsInside name := by
  have count : pl.Inside (pl.buffer + 48, 2) := inside_header header (by decide)
  rw [coGetSectionByName, Traced.all_bind, half, Traced.all_read, and_iff_right count,
    Traced.all_firstSome, Traced.value_read]
  refine forall_congr' fun i => imp_congr_right fun low => ?_
  rw [tried_sections, all_trySection header]
  refine imp_congr ?_ Iff.rfl
  change i < 1 + (pl.eShnum - 1) ↔ _
  omega

theorem value_coGetSectionByName {shdr : Nat} :
    (pl.coGetSectionByName pl.names name).value = some shdr ↔
      ∃ i, pl.FirstSection name i ∧ shdr = pl.toCoElfData.coGetSectionHeader i := by
  have found : ∀ i, (pl.trySection pl.names name i).value = some shdr ↔
      pl.mem.TextAt (pl.sectionName i) name.val ∧ shdr = pl.toCoElfData.coGetSectionHeader i := by
    intro i
    rw [value_trySection, ← value_strcmp]
    split
    · next same => simp [same, eq_comm]
    · next other => simp [other]
  rw [coGetSectionByName, Traced.value_bind, Traced.value_firstSome]
  refine exists_congr fun i => ?_
  rw [tried_sections, found, FirstSection]
  change 1 ≤ i ∧ i < 1 + (pl.eShnum - 1) ∧ _ ↔ _
  constructor
  · rintro ⟨low, high, unnamed, named, same⟩
    exact ⟨⟨low, by omega, unnamed, named⟩, same⟩
  · rintro ⟨⟨low, high, unnamed, named⟩, same⟩
    exact ⟨low, by omega, unnamed, named, same⟩

/-! ## The image -/

theorem FirstSection.unique {i j : Nat} (h : pl.FirstSection name i) (h' : pl.FirstSection name j) :
    i = j := by
  rcases Nat.lt_trichotomy i j with less | same | more
  · exact absurd h.2.2.2 (h'.2.2.1 i h.1 less)
  · exact same
  · exact absurd h'.2.2.2 (h.2.2.1 j h'.1 more)

theorem all_findTables (header : sizeofElf32Ehdr ≤ pl.size) :
    (pl.findTables pl.names).All pl.Inside ↔ pl.SectionsInside strtabName ∧
      ∀ i, pl.FirstSection strtabName i → pl.SectionsInside symtabName := by
  rw [findTables, Traced.all_bind, all_coGetSectionByName header]
  refine and_congr_right fun _ => ?_
  cases strings : (pl.coGetSectionByName pl.names strtabName).value with
  | none =>
    refine iff_of_true (Traced.all_pure _) fun i first => ?_
    rw [value_coGetSectionByName.mpr ⟨i, first, rfl⟩] at strings
    cases strings
  | some shdr =>
    obtain ⟨i, first, -⟩ := value_coGetSectionByName.mp strings
    dsimp only
    rw [Traced.all_bind, all_coGetSectionByName header, and_iff_left (Traced.all_pure _)]
    exact ⟨fun inside _ _ => inside, fun inside => inside i first⟩

theorem value_findTables {tables : ElfTables} :
    (pl.findTables pl.names).value = .ok tables ↔
      ∃ i j, pl.FirstSection strtabName i ∧ pl.FirstSection symtabName j ∧
        tables = ⟨pl.names, pl.toCoElfData.coGetSectionHeader i,
          pl.toCoElfData.coGetSectionHeader j⟩ := by
  rw [findTables, Traced.value_bind]
  constructor
  · intro found
    cases strings : (pl.coGetSectionByName pl.names strtabName).value with
    | none =>
      rw [strings] at found
      cases found
    | some shdr =>
      rw [strings] at found
      dsimp only at found
      rw [Traced.value_bind, Traced.value_pure] at found
      cases symbols : (pl.coGetSectionByName pl.names symtabName).value with
      | none =>
        rw [symbols] at found
        cases found
      | some shdr' =>
        rw [symbols] at found
        obtain ⟨i, first, rfl⟩ := value_coGetSectionByName.mp strings
        obtain ⟨j, first', rfl⟩ := value_coGetSectionByName.mp symbols
        exact ⟨i, j, first, first', (Except.ok.inj found).symm⟩
  · rintro ⟨i, j, first, first', rfl⟩
    rw [value_coGetSectionByName.mpr ⟨i, first, rfl⟩]
    dsimp only
    rw [Traced.value_bind, value_coGetSectionByName.mpr ⟨j, first', rfl⟩]
    rfl

theorem all_coElfImageRead :
    (pl.coElfImageRead true).All pl.Inside ↔ 4 ≤ pl.size ∧
      (pl.IsElf → sizeofElf32Ehdr ≤ pl.size ∧ (pl.names ≠ 0 → pl.SectionsInside strtabName ∧
        ∀ i, pl.FirstSection strtabName i → pl.SectionsInside symtabName)) := by
  rw [coElfImageRead, if_pos rfl, Traced.all_bind, bytes, Traced.all_read, Traced.value_read]
  refine and_congr (by simp [Inside]) ?_
  by_cases elf : pl.IsElf
  · have noError : ¬ pl.mem.slice pl.buffer 4 ≠ [0x7f, 0x45, 0x4c, 0x46] := not_not.mpr elf
    rw [if_neg noError, imp_iff_right elf, Traced.all_bind, half, Traced.all_read,
      Traced.all_bind, Traced.value_read]
    have last : pl.Inside (pl.buffer + 50, 2) ↔ sizeofElf32Ehdr ≤ pl.size := by
      simp only [Inside, sizeofElf32Ehdr]
      omega
    rw [last]
    refine and_congr_right fun header => ?_
    rw [and_iff_right (all_coGetSectionHeader header _), value_coGetSectionHeader]
    change Traced.All pl.Inside (if pl.names = 0 then return .error .error
      else pl.findTables pl.names) ↔ _
    by_cases names : pl.names = 0
    · rw [if_pos names]
      exact iff_of_true (Traced.all_pure _) fun some => absurd names some
    · rw [if_neg names, all_findTables header, imp_iff_right names]
  · have error : pl.mem.slice pl.buffer 4 ≠ [0x7f, 0x45, 0x4c, 0x46] := elf
    rw [if_pos error]
    exact iff_of_true (Traced.all_pure _) fun isElf => absurd isElf elf

theorem value_coElfImageRead {malloc : Bool} {tables : ElfTables} :
    (pl.coElfImageRead malloc).value = .ok tables ↔ malloc = true ∧ pl.Accepts tables := by
  rw [coElfImageRead]
  by_cases ok : malloc = true
  · rw [if_pos ok, and_iff_right ok, Traced.value_bind, bytes, Traced.value_read, Accepts]
    by_cases elf : pl.IsElf
    · have noError : ¬ pl.mem.slice pl.buffer 4 ≠ [0x7f, 0x45, 0x4c, 0x46] := not_not.mpr elf
      rw [if_neg noError, and_iff_right elf]
      change Traced.value (if pl.names = 0 then return .error .error
        else pl.findTables pl.names) = _ ↔ _
      by_cases names : pl.names = 0
      · rw [if_pos names]
        exact iff_of_false (fun found => nomatch found) fun accepts => accepts.1 names
      · rw [if_neg names, value_findTables, and_iff_right names]
    · have error : pl.mem.slice pl.buffer 4 ≠ [0x7f, 0x45, 0x4c, 0x46] := elf
      rw [if_pos error]
      exact iff_of_false (fun found => nomatch found) fun accepts => elf accepts.1
  · rw [if_neg ok]
    exact iff_of_false (fun found => nomatch found) fun accepts => ok accepts.1

/-! ## Symbols -/

theorem all_trySymbol (index : Nat) :
    (pl.trySymbol tables name index).All pl.Inside ↔
      pl.Inside (tables.symbolTableSection + 16, 4) ∧ pl.Inside (pl.symbolAt tables index, 4) ∧
        pl.Inside (tables.stringTableSection + 16, 4) ∧
          pl.TextInside (pl.symbolName tables index) name := by
  simp only [trySymbol, Traced.all_bind, Traced.all_pure, and_true, all_coGetAtOffset, all_strcmp,
    word, Traced.all_read, Traced.value_read, value_coGetAtOffset]
  rfl

theorem value_trySymbol (index : Nat) :
    (pl.trySymbol tables name index).value =
      if (pl.strcmp (pl.symbolName tables index) name).value
        then some (pl.symbolAt tables index) else none := rfl

theorem tried_symbols (index : Nat) :
    Traced.Tried (pl.trySymbol tables name) 0 index ↔ pl.SymbolUnnamed tables name index := by
  refine forall_congr' fun j => (imp_iff_right (Nat.zero_le j)).trans
    (imp_congr_right fun _ => ?_)
  rw [value_trySymbol, ← value_strcmp]
  split
  · next same => simp [same]
  · next other => simp [other]

theorem all_coGetSymbolByName :
    (pl.coGetSymbolByName tables name).All pl.Inside ↔
      pl.Inside (tables.symbolTableSection + 20, 4) ∧ pl.SymbolsInside tables name := by
  rw [coGetSymbolByName, Traced.all_bind, word, Traced.all_read, Traced.all_firstSome,
    Traced.value_read, Nat.zero_add]
  refine and_congr_right fun _ => forall_congr' fun i => (imp_iff_right (Nat.zero_le i)).trans ?_
  rw [tried_symbols, all_trySymbol]
  rfl

theorem value_coGetSymbolByName {symbol : Nat} :
    (pl.coGetSymbolByName tables name).value = some symbol ↔
      ∃ i < pl.symbolCount tables, pl.SymbolUnnamed tables name i ∧
        pl.mem.TextAt (pl.symbolName tables i) name.val ∧ symbol = pl.symbolAt tables i := by
  rw [coGetSymbolByName, Traced.value_bind, Traced.value_firstSome]
  refine exists_congr fun i => (and_iff_right (Nat.zero_le i)).trans ?_
  rw [tried_symbols, value_trySymbol, ← value_strcmp, Nat.zero_add]
  refine and_congr Iff.rfl (and_congr_right fun _ => ?_)
  split
  · next same => simp [same, eq_comm]
  · next other => simp [other]

theorem all_coGetSymbolOffset (header : sizeofElf32Ehdr ≤ pl.size) (symbol : Nat) :
    (pl.coGetSymbolOffset symbol).All pl.Inside ↔
      pl.Inside (symbol + 14, 2) ∧ pl.Inside (symbol + 4, 4) ∧
        pl.Inside (pl.toCoElfData.coGetSectionHeader (pl.mem.readHalf (symbol + 14)) + 12, 4) := by
  simp only [coGetSymbolOffset, Traced.all_bind, Traced.all_pure, and_true, half, word,
    Traced.all_read, Traced.value_read, all_coGetSectionHeader header, true_and,
    value_coGetSectionHeader]

theorem all_lookup (header : sizeofElf32Ehdr ≤ pl.size) :
    (pl.lookup tables name).All pl.Inside ↔
      (pl.Inside (tables.symbolTableSection + 20, 4) ∧ pl.SymbolsInside tables name) ∧
        pl.OffsetsInside tables name := by
  rw [lookup, Traced.all_bind, all_coGetSymbolByName]
  refine and_congr_right fun _ => ?_
  cases found : (pl.coGetSymbolByName tables name).value with
  | none =>
    refine iff_of_true (Traced.all_pure _) fun i low unnamed named => ?_
    rw [value_coGetSymbolByName.mpr ⟨i, low, unnamed, named, rfl⟩] at found
    cases found
  | some symbol =>
    obtain ⟨i, low, unnamed, named, rfl⟩ := value_coGetSymbolByName.mp found
    dsimp only
    rw [Traced.all_bind, and_iff_left (Traced.all_pure _), all_coGetSymbolOffset header]
    constructor
    · intro inside j low' unnamed' named'
      rcases Nat.lt_trichotomy i j with less | same | more
      · exact absurd named (unnamed' i less)
      · exact same ▸ inside
      · exact absurd named' (unnamed j more)
    · intro inside
      exact inside i low unnamed named

/-! ## Loading -/

theorem all_sectionUserPtr (shdr shType : Nat) :
    (pl.sectionUserPtr shdr shType).All pl.Inside ↔
      (shType ≠ shtNobits → pl.Inside (shdr + 16, 4)) := by
  rw [sectionUserPtr]
  by_cases nobits : shType = shtNobits
  · rw [if_pos nobits]
    exact iff_of_true (Traced.all_pure _) fun bits => absurd nobits bits
  · rw [if_neg nobits, all_coGetAtOffset, imp_iff_right nobits]

theorem value_sectionUserPtr (shdr shType : Nat) :
    (pl.sectionUserPtr shdr shType).value =
      if shType = shtNobits then 0 else pl.offsetAddress shdr 0 := by
  rw [sectionUserPtr]
  split
  · rfl
  · rfl

theorem all_copied (userPtr size : Nat) :
    (pl.copied userPtr size).All pl.Inside ↔ (userPtr ≠ 0 → pl.Inside (userPtr, size)) := by
  rw [copied]
  by_cases some : userPtr ≠ 0
  · rw [if_pos some, bytes, Traced.all_read, imp_iff_right some]
  · rw [if_neg some]
    exact iff_of_true (Traced.all_pure _) fun nonzero => absurd nonzero some

/-- The contents are read only if there is memory for the request. -/
theorem all_coUserMonitorLoadSection (host : SectionHost) (index userPtr size : Nat) :
    (pl.coUserMonitorLoadSection host index userPtr size).All pl.Inside ↔
      (host.malloc index = true → userPtr ≠ 0 → pl.Inside (userPtr, size)) := by
  rw [coUserMonitorLoadSection]
  by_cases malloc : host.malloc index = true
  · rw [if_pos malloc, Traced.all_bind, and_iff_left (Traced.all_pure _), imp_iff_right malloc,
      all_copied]
  · rw [if_neg malloc]
    exact iff_of_true (Traced.all_pure _) fun ok => absurd ok malloc

theorem all_coSectionLoad (header : sizeofElf32Ehdr ≤ pl.size) (host : SectionHost) (index : Nat) :
    (pl.coSectionLoad host index).All pl.Inside ↔
      pl.Inside (pl.toCoElfData.coGetSectionHeader index + 8, 4) ∧
        ((pl.toCoElfData.sectionAt index).Alloc →
          pl.Inside (pl.toCoElfData.coGetSectionHeader index + 4, 4) ∧
          ((pl.toCoElfData.sectionAt index).shType ≠ shtNobits →
            pl.Inside (pl.toCoElfData.coGetSectionHeader index + 16, 4)) ∧
          pl.Inside (pl.toCoElfData.coGetSectionHeader index + 12, 4) ∧
          pl.Inside (pl.toCoElfData.coGetSectionHeader index + 20, 4) ∧
          (host.malloc index = true → pl.contentsAt index ≠ 0 →
            pl.Inside (pl.contentsAt index, (pl.toCoElfData.sectionAt index).shSize))) := by
  rw [coSectionLoad, Traced.all_bind, and_iff_right (all_coGetSectionHeader header index),
    value_coGetSectionHeader, Traced.all_bind, word, Traced.all_read, Traced.value_read]
  refine and_congr_right fun _ => ?_
  by_cases alloc : (pl.toCoElfData.sectionAt index).Alloc
  · rw [imp_iff_right alloc]
    refine Iff.trans (iff_of_eq (congrArg _ (if_pos alloc))) ?_
    simp only [Traced.all_bind, word, Traced.all_read, Traced.value_read, all_sectionUserPtr,
      all_coUserMonitorLoadSection, value_sectionUserPtr]
    rfl
  · refine iff_of_true ?_ fun isAlloc => absurd isAlloc alloc
    exact (congrArg (Traced.All pl.Inside) (if_neg alloc)).mpr (Traced.all_pure _)

/-- A host that has memory for every request, and a driver that loads every section. -/
def readyHost : SectionHost := ⟨fun _ => true, fun _ => .ok⟩

theorem value_coSectionLoad_readyHost (index : Nat) :
    (pl.coSectionLoad readyHost index).value = none := by
  have answered : ∀ userPtr size, (pl.coUserMonitorLoadSection readyHost index userPtr size).value =
    none := fun _ _ => rfl
  rw [coSectionLoad, Traced.value_bind, Traced.value_bind]
  split
  · simp only [Traced.value_bind, answered]
  · rfl

theorem all_coElfImageLoad (header : sizeofElf32Ehdr ≤ pl.size) :
    (∀ host, (pl.coElfImageLoad host).All pl.Inside) ↔
      ∀ i, 1 ≤ i → i < pl.eShnum → pl.ContentsInside i := by
  have count : pl.Inside (pl.buffer + 48, 2) := inside_header header (by decide)
  have sections : ∀ host, (pl.coElfImageLoad host).All pl.Inside ↔
      ∀ i, 1 ≤ i → i < 1 + (pl.eShnum - 1) → Traced.Tried (pl.coSectionLoad host) 1 i →
        (pl.coSectionLoad host i).All pl.Inside := by
    intro host
    rw [coElfImageLoad, Traced.all_bind, half, Traced.all_read, and_iff_right count,
      Traced.all_bind, and_iff_left (Traced.all_pure _), Traced.all_firstSome]
    rfl
  constructor
  · intro inside i low high
    have tried : Traced.Tried (pl.coSectionLoad readyHost) 1 i :=
      fun j _ _ => value_coSectionLoad_readyHost j
    have all := (sections readyHost).mp (inside readyHost) i low (by omega) tried
    obtain ⟨flags, others⟩ := (all_coSectionLoad header readyHost i).mp all
    refine ⟨flags, fun alloc => ?_⟩
    obtain ⟨type, offset, addr, size, contents⟩ := others alloc
    exact ⟨type, offset, addr, size, contents rfl⟩
  · intro inside host
    refine (sections host).mpr fun i low high _ => (all_coSectionLoad header host i).mpr ?_
    obtain ⟨flags, others⟩ := inside i low (by omega)
    refine ⟨flags, fun alloc => ?_⟩
    obtain ⟨type, offset, addr, size, contents⟩ := others alloc
    exact ⟨type, offset, addr, size, fun _ => contents⟩

/-- The reader is robust for the images whose structures lie in the file. -/
theorem robust_iff (pl : ElfBuffer) : pl.Robust ↔ pl.ImageInside := by
  have refused : (pl.coElfImageRead false).All pl.Inside := Traced.all_pure _
  constructor
  · intro robust
    obtain ⟨ident, tablesInside⟩ := all_coElfImageRead.mp (robust.read true)
    have uses : ∀ tables, pl.Accepts tables → pl.UsesInside tables := fun tables accepts =>
      robust.accepted true tables (value_coElfImageRead.mpr ⟨rfl, accepts⟩)
    have header : ∀ {tables}, pl.Accepts tables → sizeofElf32Ehdr ≤ pl.size :=
      fun accepts => (tablesInside accepts.1).1
    refine ⟨ident, fun elf => (tablesInside elf).1, fun elf some => ((tablesInside elf).2 some).1,
      fun elf some => ((tablesInside elf).2 some).2, fun tables accepts => ?_,
      fun tables accepts name => ?_, fun tables accepts => ?_⟩
    · have found name := ((all_lookup (header accepts)).mp ((uses tables accepts).lookups name)).1
      exact ⟨(found strtabName).1, fun name => (found name).2⟩
    · exact ((all_lookup (header accepts)).mp ((uses tables accepts).lookups name)).2
    · exact (all_coElfImageLoad (header accepts)).mp (uses tables accepts).load
  · intro inside
    refine ⟨fun malloc => ?_, fun malloc tables value => ?_⟩
    · cases malloc with
      | false => exact refused
      | true =>
        refine all_coElfImageRead.mpr ⟨inside.ident, fun elf => ⟨inside.header elf, fun some => ?_⟩⟩
        exact ⟨inside.strtab elf some, inside.symtab elf some⟩
    · obtain ⟨-, accepts⟩ := value_coElfImageRead.mp value
      have header := inside.header accepts.1
      obtain ⟨symtab, symbols⟩ := inside.symbols tables accepts
      refine ⟨fun name => (all_lookup header).mpr ?_, (all_coElfImageLoad header).mpr ?_⟩
      · exact ⟨⟨symtab, symbols name⟩, inside.offsets tables accepts name⟩
      · exact inside.sections tables accepts

/-! ### An image -/

instance (pl : ElfBuffer) (r : Nat × Nat) : Decidable (pl.Inside r) :=
  inferInstanceAs (Decidable (_ → _))

/-- A text that ends inside the file. -/
theorem textInside_of_end {text n : Nat} (inside : ∀ k ≤ n, pl.Inside (text + k, 1))
    (ends : pl.mem (text + n) = 0) (name : CText) : pl.TextInside text name := by
  intro k short same
  apply inside
  by_contra beyond
  -- the comparison has ended at the zero
  have at' := congrArg (·[n]?) same
  simp only [ByteMem.slice, List.getElem?_map, List.getElem?_take,
    List.getElem?_range (Nat.not_le.mp beyond), if_pos (Nat.not_le.mp beyond), Option.map_some, ends] at at'
  exact name.property (List.mem_of_getElem? at'.symm)

/-- Four bytes of code, with the tables of names and of symbols, and one symbol. -/
def linkedImage : ElfBuffer where
  mem := ByteMem.writeWords (fun _ => 0) 0x1000 63
    ([0x464c457f, 0, 0, 0, 0, 0, 0, 0, 52, 0, 0, 40 * 65536, 4 + 65536,
      0, 0, 0, 0, 0, 0, 0, 0, 0, 0,
      1, 3, 0, 0, 212, 20, 0, 0, 0, 0,
      9, 2, 0, 0, 232, 16, 0, 0, 0, 0,
      0, 1, 2, 0xc0000100, 248, 4, 0, 0, 0, 0,
      0x74732e00, 0x62617472, 0x79732e00, 0x6261746d, 0x006f6700,
      17, 0xc0000100, 4, 3 * 65536,
      0xddccbbaa].getD · 0)
  buffer := 0x1000
  size := 252
  inMemory := by decide

theorem linkedImage_sections (name : CText) : linkedImage.SectionsInside name := by
  intro i low high _
  have few : linkedImage.eShnum = 4 := by decide +kernel
  have cases : i = 1 ∨ i = 2 ∨ i = 3 := by omega
  rcases cases with rfl | rfl | rfl
  · exact ⟨by decide +kernel, by decide +kernel,
      textInside_of_end (n := 7) (by decide +kernel) (by decide +kernel) name⟩
  · exact ⟨by decide +kernel, by decide +kernel,
      textInside_of_end (n := 7) (by decide +kernel) (by decide +kernel) name⟩
  · exact ⟨by decide +kernel, by decide +kernel,
      textInside_of_end (n := 0) (by decide +kernel) (by decide +kernel) name⟩

theorem linkedImage_strtab : linkedImage.FirstSection strtabName 1 := by
  refine ⟨Nat.le_refl 1, by decide +kernel, fun j low high => absurd low (by omega), ?_⟩
  unfold ByteMem.TextAt
  decide +kernel

theorem linkedImage_symtab : linkedImage.FirstSection symtabName 2 := by
  refine ⟨by decide, by decide +kernel, fun j low high => ?_, ?_⟩
  · obtain rfl : j = 1 := by omega
    unfold ByteMem.TextAt
    decide +kernel
  · unfold ByteMem.TextAt
    decide +kernel

theorem imageInside_linkedImage : linkedImage.ImageInside := by
  have accepted : ∀ tables, linkedImage.Accepts tables → tables = ⟨linkedImage.names,
      linkedImage.toCoElfData.coGetSectionHeader 1, linkedImage.toCoElfData.coGetSectionHeader 2⟩ := by
    rintro tables ⟨-, -, i, j, strtab, symtab, rfl⟩
    rw [strtab.unique linkedImage_strtab, symtab.unique linkedImage_symtab]
  refine
    { ident := by decide
      header := fun _ => by decide
      strtab := fun _ _ => linkedImage_sections strtabName
      symtab := fun _ _ _ _ => linkedImage_sections symtabName
      symbols := ?_
      offsets := ?_
      sections := ?_ }
  · intro tables accepts
    rw [accepted tables accepts]
    refine ⟨by decide +kernel, fun name i few _ => ?_⟩
    obtain rfl : i = 0 := Nat.lt_one_iff.mp (Nat.lt_of_lt_of_eq few (by decide +kernel))
    exact ⟨by decide +kernel, by decide +kernel, by decide +kernel,
      textInside_of_end (n := 2) (by decide +kernel) (by decide +kernel) name⟩
  · intro tables accepts name i few _ _
    rw [accepted tables accepts] at few ⊢
    obtain rfl : i = 0 := Nat.lt_one_iff.mp (Nat.lt_of_lt_of_eq few (by decide +kernel))
    exact ⟨by decide +kernel, by decide +kernel, by decide +kernel⟩
  · intro tables _ i low high
    have few : linkedImage.eShnum = 4 := by decide +kernel
    have cases : i = 1 ∨ i = 2 ∨ i = 3 := by omega
    unfold ContentsInside
    rcases cases with rfl | rfl | rfl <;> decide +kernel

theorem robust_iff_linkedImage : linkedImage.ImageInside ∧ linkedImage.Robust :=
  ⟨imageInside_linkedImage, (robust_iff linkedImage).mpr imageInside_linkedImage⟩

/-- A file of four bytes, `"\x7FELF"`. -/
def identOnly : ElfBuffer where
  mem := fun x => [0x7f, 0x45, 0x4c, 0x46].getD (x - 0x1000) 0
  buffer := 0x1000
  size := 4
  inMemory := by decide

/-- The header that is read is not in the file. -/
theorem robust_identOnly : ¬ identOnly.Robust := by
  intro robust
  have elf : identOnly.IsElf := by
    unfold IsElf
    decide +kernel
  have header := (all_coElfImageRead.mp (robust.read true)).2 elf
  exact absurd header.1 (by decide)

end ElfBuffer

end CoLinux
