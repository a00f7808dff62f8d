import CoLinux.Kernel.PassageTables
import Mathlib.Tactic.SplitIfs

/-!
# What the tables of the passage page map

After the initialisations each entry is one of the two that were asked for, or not present. The two
addresses may share their table at any level.
-/

namespace CoLinux

open Lib

variable {a b pa : Nat} {m m' : TableMem}

/-! ## Two levels -/

/-- The entries of a normal space that maps `a` and `b`. -/
structure TwoMapped (as : NormalAddressSpace) (a b pa : Nat) (m : TableMem) : Prop where
  pgd : ∀ i, m as.pgd i =
    if i = pmdIndex a then tableEntry kernpgTable (as.pte false)
    else if i = pmdIndex b then tableEntry kernpgTable (as.pte true) else 0
  first : ∀ i, m (as.pte false) i =
    if i = pteIndex a ∨ pmdIndex b = pmdIndex a ∧ i = pteIndex b then kernpgTable ||| pa else 0
  second : ∀ i, m (as.pte true) i =
    if pmdIndex b ≠ pmdIndex a ∧ i = pteIndex b then kernpgTable ||| pa else 0

theorem kernpgEntry_ne_zero (frame : Nat) : tableEntry kernpgTable frame ≠ 0 :=
  tableEntry_ne_zero (by decide) (by decide)

/-- The two turns of the loop map two addresses. -/
theorem normalTempMap_twoMapped {as : NormalAddressSpace}
    (zero : ∀ f ∈ [as.pgd, as.pte false, as.pte true], ∀ i, m f i = 0) :
    TwoMapped as a b pa (normalTempMap as pa true b (normalTempMap as pa false a m)) := by
  have distinct := as.distinct
  simp only [List.nodup_cons, List.mem_cons, List.not_mem_nil, or_false, not_or] at distinct
  obtain ⟨⟨d0, d1⟩, d2, -⟩ := distinct
  simp only [List.forall_mem_cons, List.not_mem_nil, false_implies, implies_true, and_true] at zero
  obtain ⟨z0, z1, z2⟩ := zero
  have one : normalTempMap as pa false a m =
      (m.set as.pgd (pmdIndex a) (tableEntry kernpgTable (as.pte false))).set (as.pte false)
        (pteIndex a) (kernpgTable ||| pa) := if_pos (z0 _)
  have entry := kernpgEntry_ne_zero (as.pte false)
  rw [one, normalTempMap]
  by_cases same : pmdIndex b = pmdIndex a
  · rw [if_neg (by simpa [TableMem.set, d0, same] using entry)]
    constructor <;> intro i
    · simp [TableMem.set, d0, same, z0]
      split_ifs <;> rfl
    · simp [TableMem.set, Ne.symm d0, same, z1]
      split_ifs <;> grind
    · simp [TableMem.set, Ne.symm d1, Ne.symm d2, same, z2]
  · rw [if_pos (by simp [TableMem.set, d0, same, z0])]
    constructor <;> intro i
    · simp [TableMem.set, d0, d1, z0]
      split_ifs <;> grind
    · simp [TableMem.set, Ne.symm d0, d2, same, z1]
    · simp [TableMem.set, Ne.symm d1, Ne.symm d2, same, z2]

/-- The entry of the page itself. -/
theorem kernpgTable_or {pa : Nat} (hpa : coArchPageSize ∣ pa) :
    (kernpgTable ||| pa) = tableEntry kernpgTable (pa / coArchPageSize) := by
  rw [tableEntry, Nat.mul_div_cancel' hpa]

/-- Addresses are in the same page if they have the same indices. -/
theorem samePage_iff (va a : Nat) :
    va / coArchPageSize = a / coArchPageSize ↔
      va / 4194304 = pmdIndex a ∧ va / 4096 % 1024 = pteIndex a := by
  simp only [pmdIndex, pteIndex, coArchPageSize, coArchPmdSize]
  omega

/-- The last level of a walk. -/
theorem walk_leaf {f t frame offset : Nat} {p : Prop} [Decidable p]
    (h : m f t = if p then tableEntry kernpgTable frame else 0) :
    (walk m f [t]).map (fun g => 4096 * g + offset) =
      if p then some (4096 * frame + offset) else none := by
  by_cases hp : p
  · rw [if_pos hp] at h ⊢
    rw [walk_entry (by decide) (by decide) h]
    rfl
  · rw [if_neg hp] at h ⊢
    rw [walk_none h]
    rfl

theorem TwoMapped.resolvesOnly {as : NormalAddressSpace} (mapped : TwoMapped as a b pa m)
    (hpa : coArchPageSize ∣ pa) : ResolvesOnly (as.resolve m) a b pa := by
  obtain ⟨pgd, first, second⟩ := mapped
  intro va
  have page : pa + va % coArchPageSize = 4096 * (pa / coArchPageSize) + va % 4096 := by
    rw [Nat.mul_div_cancel' hpa]
  simp only [kernpgTable_or hpa] at first second
  simp only [samePage_iff, NormalAddressSpace.resolve, page]
  generalize va / 4194304 = d
  generalize va / 4096 % 1024 = t
  by_cases da : d = pmdIndex a
  · rw [walk_entry (by decide) (by decide) ((pgd d).trans (if_pos da)), walk_leaf (first t)]
    exact if_congr (by grind) rfl rfl
  by_cases db : d = pmdIndex b
  · rw [walk_entry (by decide) (by decide) ((pgd d).trans ((if_neg da).trans (if_pos db))),
      walk_leaf (second t)]
    exact if_congr (by grind) rfl rfl
  · rw [walk_none ((pgd d).trans ((if_neg da).trans (if_neg db))), if_neg (by grind)]
    rfl

/-- The layout of a host without PAE fills the same entries. -/
theorem shortTempAddressSpaceInit_twoMapped {as : NormalAddressSpace} (va : Bool → Nat)
    (zero : ∀ f ∈ [as.pgd, as.pte false, as.pte true], ∀ i, m f i = 0) :
    TwoMapped as (va false) (va true) pa (shortTempAddressSpaceInit as pa va m) := by
  have distinct := as.distinct
  simp only [List.nodup_cons, List.mem_cons, List.not_mem_nil, or_false, not_or] at distinct
  obtain ⟨⟨d0, d1⟩, d2, -⟩ := distinct
  simp only [List.forall_mem_cons, List.not_mem_nil, false_implies, implies_true, and_true] at zero
  obtain ⟨z0, z1, z2⟩ := zero
  rw [shortTempAddressSpaceInit]
  by_cases same : pmdIndex (va false) = pmdIndex (va true)
  · rw [if_pos same]
    constructor <;> intro i
    · simp [TableMem.set, d0, same, z0]
      split_ifs <;> rfl
    · simp [TableMem.set, Ne.symm d0, same, z1]
      split_ifs <;> grind
    · simp [TableMem.set, Ne.symm d1, Ne.symm d2, same, z2]
  · rw [if_neg same]
    constructor <;> intro i
    · simp [TableMem.set, d0, d1, z0]
      split_ifs <;> grind
    · simp [TableMem.set, Ne.symm d0, d2, Ne.symm same, z1]
    · simp [TableMem.set, Ne.symm d1, Ne.symm d2, Ne.symm same, z2]

/-! ## Three levels -/

/-- The two addresses share their page directory. -/
abbrev SameDirectory (a b : Nat) : Prop := paePgdIndex b = paePgdIndex a

/-- The two addresses share their page table. -/
abbrev SameTable (a b : Nat) : Prop := SameDirectory a b ∧ paePmdIndex b = paePmdIndex a

/-- The entries of a PAE space that maps `a` and `b`. -/
structure ThreeMapped (as : PaeAddressSpace) (a b pa : Nat) (m : TableMem) : Prop where
  main : ∀ i, m as.main i =
    if i = paePgdIndex a then tableEntry 1 (as.pgd false)
    else if i = paePgdIndex b then tableEntry 1 (as.pgd true) else 0
  firstDirectory : ∀ i, m (as.pgd false) i =
    if i = paePmdIndex a then tableEntry kernpgTable (as.pte false)
    else if SameDirectory a b ∧ i = paePmdIndex b then tableEntry kernpgTable (as.pte true) else 0
  secondDirectory : ∀ i, m (as.pgd true) i =
    if ¬ SameDirectory a b ∧ i = paePmdIndex b then tableEntry kernpgTable (as.pte true) else 0
  first : ∀ i, m (as.pte false) i =
    if i = paePteIndex a ∨ SameTable a b ∧ i = paePteIndex b then kernpgTable ||| pa else 0
  second : ∀ i, m (as.pte true) i =
    if ¬ SameTable a b ∧ i = paePteIndex b then kernpgTable ||| pa else 0

/-- The two turns of the loop map two addresses. -/
theorem paeTempMap_threeMapped {as : PaeAddressSpace}
    (zero : ∀ f ∈ [as.main, as.pgd false, as.pgd true, as.pte false, as.pte true],
      ∀ i, m f i = 0) :
    ThreeMapped as a b pa (paeTempMap as pa true b (paeTempMap as pa false a m)) := by
  have distinct := as.distinct
  simp only [List.nodup_cons, List.mem_cons, List.not_mem_nil, or_false, not_or] at distinct
  obtain ⟨⟨d0, d1, d2, d3⟩, ⟨e1, e2, e3⟩, ⟨f2, f3⟩, g3, -⟩ := distinct
  simp only [List.forall_mem_cons, List.not_mem_nil, false_implies, implies_true, and_true] at zero
  obtain ⟨z0, z1, z2, z3, z4⟩ := zero
  have one : paeTempMap as pa false a m =
      ((m.set as.main (paePgdIndex a) (tableEntry 1 (as.pgd false))).set (as.pgd false)
        (paePmdIndex a) (tableEntry kernpgTable (as.pte false))).set (as.pte false)
        (paePteIndex a) (kernpgTable ||| pa) := by
    rw [paeTempMap, if_pos (z0 _), paeTempMapBelow,
      if_pos (by rw [TableMem.set_frame (Ne.symm d0), z1])]
  have entry := kernpgEntry_ne_zero (as.pte false)
  have mainEntry : tableEntry 1 (as.pgd false) ≠ 0 := tableEntry_ne_zero (by decide) (by decide)
  rw [one, paeTempMap]
  by_cases dir : paePgdIndex b = paePgdIndex a
  · rw [if_neg (by simpa [TableMem.set, d0, d2, dir] using mainEntry), paeTempMapBelow]
    by_cases table : paePmdIndex b = paePmdIndex a
    · rw [if_neg (by simpa [TableMem.set, e2, table] using entry)]
      constructor <;> intro i
      · simp [TableMem.set, d0, d2, z0, dir]
        split_ifs <;> rfl
      · simp [TableMem.set, Ne.symm d0, e2, z1, table]
        split_ifs <;> grind
      · simp [TableMem.set, Ne.symm d1, Ne.symm e1, f2, z2, dir]
      · simp [TableMem.set, Ne.symm d2, Ne.symm e2, z3]
        split_ifs <;> grind
      · simp [TableMem.set, Ne.symm d3, Ne.symm e3, Ne.symm g3, z4, dir, table]
    · rw [if_pos (by simp [TableMem.set, Ne.symm d0, e2, table, z1])]
      constructor <;> intro i
      · simp [TableMem.set, d0, d2, d3, z0, dir]
        split_ifs <;> rfl
      · simp [TableMem.set, Ne.symm d0, e2, e3, z1]
        split_ifs <;> grind
      · simp [TableMem.set, Ne.symm d1, Ne.symm e1, f2, f3, z2, dir]
      · simp [TableMem.set, Ne.symm d2, Ne.symm e2, g3, z3, SameTable, table]
      · simp [TableMem.set, Ne.symm d3, Ne.symm e3, Ne.symm g3, z4, table]
  · rw [if_pos (by simp [TableMem.set, d0, d2, dir, z0]), paeTempMapBelow,
      if_pos (by simp [TableMem.set, Ne.symm d1, Ne.symm e1, f2, z2])]
    constructor <;> intro i
    · simp [TableMem.set, d0, d1, d2, d3, z0]
      split_ifs <;> grind
    · simp [TableMem.set, Ne.symm d0, e1, e2, e3, z1, dir]
    · simp [TableMem.set, Ne.symm d1, Ne.symm e1, f2, f3, z2, dir]
    · simp [TableMem.set, Ne.symm d2, Ne.symm e2, Ne.symm f2, g3, z3, SameTable, SameDirectory, dir]
    · simp [TableMem.set, Ne.symm d3, Ne.symm e3, Ne.symm f3, Ne.symm g3, z4, dir]

theorem samePage_pae_iff (va a : Nat) :
    va / coArchPageSize = a / coArchPageSize ↔
      va / 1073741824 = paePgdIndex a ∧ va / 2097152 % 512 = paePmdIndex a ∧
        va / 4096 % 512 = paePteIndex a := by
  simp only [paePgdIndex, paePmdIndex, paePteIndex, coArchPageSize, coArchPaePgdSize,
    coArchPaePmdSize]
  omega

theorem ThreeMapped.resolvesOnly {as : PaeAddressSpace} (mapped : ThreeMapped as a b pa m)
    (hpa : coArchPageSize ∣ pa) : ResolvesOnly (as.resolve m) a b pa := by
  obtain ⟨main, firstDirectory, secondDirectory, first, second⟩ := mapped
  intro va
  have page : pa + va % coArchPageSize = 4096 * (pa / coArchPageSize) + va % 4096 := by
    rw [Nat.mul_div_cancel' hpa]
  simp only [kernpgTable_or hpa] at first second
  simp only [samePage_pae_iff, PaeAddressSpace.resolve, page]
  generalize va / 1073741824 = d
  generalize va / 2097152 % 512 = p
  generalize va / 4096 % 512 = t
  by_cases da : d = paePgdIndex a
  · rw [walk_entry (by decide) (by decide) ((main d).trans (if_pos da))]
    by_cases pa : p = paePmdIndex a
    · rw [walk_entry (by decide) (by decide) ((firstDirectory p).trans (if_pos pa)),
        walk_leaf (first t)]
      exact if_congr (by grind) rfl rfl
    by_cases pb : SameDirectory a b ∧ p = paePmdIndex b
    · rw [walk_entry (by decide) (by decide)
        ((firstDirectory p).trans ((if_neg pa).trans (if_pos pb))), walk_leaf (second t)]
      exact if_congr (by grind) rfl rfl
    · rw [walk_none ((firstDirectory p).trans ((if_neg pa).trans (if_neg pb))), if_neg (by grind)]
      rfl
  by_cases db : d = paePgdIndex b
  · rw [walk_entry (by decide) (by decide) ((main d).trans ((if_neg da).trans (if_pos db)))]
    by_cases pb : ¬ SameDirectory a b ∧ p = paePmdIndex b
    · rw [walk_entry (by decide) (by decide) ((secondDirectory p).trans (if_pos pb)),
        walk_leaf (second t)]
      exact if_congr (by grind) rfl rfl
    · rw [walk_none ((secondDirectory p).trans (if_neg pb)), if_neg (by grind)]
      rfl
  · rw [walk_none ((main d).trans ((if_neg da).trans (if_neg db))), if_neg (by grind)]
    rfl

/-! ## The passage page -/

/-- A space is filled within its own tables. -/
theorem normalTempMap_frame {as : NormalAddressSpace} {f : Nat} (i : Bool)
    (h : f ∉ [as.pgd, as.pte false, as.pte true]) (va j : Nat) :
    normalTempMap as pa i va m f j = m f j := by
  simp only [List.mem_cons, List.not_mem_nil, or_false, not_or] at h
  obtain ⟨pgd, first, second⟩ := h
  rw [normalTempMap]
  split
  · cases i with
    | false => rw [TableMem.set_frame first, TableMem.set_frame pgd]
    | true => rw [TableMem.set_frame second, TableMem.set_frame pgd]
  · rw [TableMem.set_frame first]

theorem paeTempMapBelow_frame {as : PaeAddressSpace} {f : Nat} (j i : Bool)
    (h : f ∉ [as.main, as.pgd false, as.pgd true, as.pte false, as.pte true]) (va k : Nat) :
    paeTempMapBelow as pa j i va m f k = m f k := by
  simp only [List.mem_cons, List.not_mem_nil, or_false, not_or] at h
  obtain ⟨-, pgd0, pgd1, pte0, pte1⟩ := h
  have pgd : f ≠ as.pgd j := by
    cases j with
    | false => exact pgd0
    | true => exact pgd1
  rw [paeTempMapBelow]
  split
  · cases i with
    | false => rw [TableMem.set_frame pte0, TableMem.set_frame pgd]
    | true => rw [TableMem.set_frame pte1, TableMem.set_frame pgd]
  · rw [TableMem.set_frame pte0]

theorem paeTempMap_frame {as : PaeAddressSpace} {f : Nat} (i : Bool)
    (h : f ∉ [as.main, as.pgd false, as.pgd true, as.pte false, as.pte true]) (va k : Nat) :
    paeTempMap as pa i va m f k = m f k := by
  have main : f ≠ as.main := fun same => h (same ▸ List.mem_cons_self)
  rw [paeTempMap]
  split
  · rw [paeTempMapBelow_frame i i h, TableMem.set_frame main]
  · rw [paeTempMapBelow_frame false i h]

/-- Entries that are the same map the same. -/
theorem ThreeMapped.congr {as : PaeAddressSpace} (mapped : ThreeMapped as a b pa m)
    (same : ∀ f ∈ [as.main, as.pgd false, as.pgd true, as.pte false, as.pte true],
      ∀ i, m' f i = m f i) : ThreeMapped as a b pa m' := by
  obtain ⟨main, firstDirectory, secondDirectory, first, second⟩ := mapped
  constructor
  · intro i
    rw [same as.main (by simp), main]
  · intro i
    rw [same (as.pgd false) (by simp), firstDirectory]
  · intro i
    rw [same (as.pgd true) (by simp), secondDirectory]
  · intro i
    rw [same (as.pte false) (by simp), first]
  · intro i
    rw [same (as.pte true) (by simp), second]

/-- The tables of the passage page map it at the two addresses that each layout asks for, and
nothing else. -/
theorem passagePage_resolvesOnly {page : PassagePage} (zeroed : page.Zeroed m)
    (passagePageVaddr pp : Nat) :
    ResolvesOnly (page.guestNormal.resolve
        (coMonitorArchPassagePageInit false page passagePageVaddr pp m))
      passagePageVaddr pp (coArchPageSize * page.firstPage) ∧
    ResolvesOnly (page.hostPae.resolve
        (coMonitorArchPassagePageInit true page passagePageVaddr pp m))
      pp (coArchPageSize * page.firstPage) (coArchPageSize * page.firstPage) ∧
    ResolvesOnly (page.guestNormal.resolve
        (coMonitorArchPassagePageInit true page passagePageVaddr pp m))
      passagePageVaddr (coArchPageSize * page.firstPage) (coArchPageSize * page.firstPage) := by
  have aligned : coArchPageSize ∣ coArchPageSize * page.firstPage := Nat.dvd_mul_right _ _
  refine ⟨?_, ?_, ?_⟩
  · exact (shortTempAddressSpaceInit_twoMapped (fun i => if i then pp else passagePageVaddr)
      zeroed.normal).resolvesOnly aligned
  · refine ((paeTempMap_threeMapped zeroed.pae).congr fun f hf i => ?_).resolvesOnly aligned
    have other : f ∉ [page.guestNormal.pgd, page.guestNormal.pte false,
        page.guestNormal.pte true] := fun h => page.apart f h hf
    exact (normalTempMap_frame true other _ i).trans (normalTempMap_frame false other _ i)
  · refine (normalTempMap_twoMapped fun f hf i => ?_).resolvesOnly aligned
    have other := page.apart f hf
    exact ((paeTempMap_frame true other _ i).trans (paeTempMap_frame false other _ i)).trans
      (zeroed.normal f hf i)

/-- A passage page in nine frames in a row. -/
def rowPassagePage : PassagePage where
  firstPage := 100
  guestNormal := ⟨101, fun i => if i then 103 else 102, by decide⟩
  hostPae := ⟨104, fun i => if i then 106 else 105, fun i => if i then 108 else 107, by decide⟩
  apart := by decide

theorem rowPassagePage_resolvesOnly :
    ResolvesOnly (rowPassagePage.guestNormal.resolve
        (coMonitorArchPassagePageInit false rowPassagePage coVptrPassagePage 0x8064000
          fun _ _ => 0))
      coVptrPassagePage 0x8064000 (coArchPageSize * 100) ∧
    ResolvesOnly (rowPassagePage.hostPae.resolve
        (coMonitorArchPassagePageInit true rowPassagePage coVptrPassagePage 0x8064000
          fun _ _ => 0))
      0x8064000 (coArchPageSize * 100) (coArchPageSize * 100) ∧
    ResolvesOnly (rowPassagePage.guestNormal.resolve
        (coMonitorArchPassagePageInit true rowPassagePage coVptrPassagePage 0x8064000
          fun _ _ => 0))
      coVptrPassagePage (coArchPageSize * 100) (coArchPageSize * 100) :=
  passagePage_resolvesOnly ⟨fun _ _ _ => rfl, fun _ _ _ => rfl⟩ coVptrPassagePage 0x8064000

end CoLinux
