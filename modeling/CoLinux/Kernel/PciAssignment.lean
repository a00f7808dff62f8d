import CoLinux.Kernel.PciTable

/-!
# Where the units go

All units of a type go to one device. It is the first that is empty or has the type in function 0.
The table holds every unit once exactly if there is such a device for every type that needs one, and
the functions of its units are different and not used by the user.
-/

namespace CoLinux

open Lib

abbrev PciSlots : Type := SlotTable (Nat × Nat) PciFunction

/-- Function 0 of a device has the type. -/
def headIs (T : PciSlots) (d : Nat) (type : UInt8) : Bool := (T (d, 0)).any fun f => f.type = type

/-- The units that the user did not place. -/
def leftUnits (units : List PciFunction) (rs : List PciRequest) : List PciRequest :=
  rs.filter fun r => r.unit ∉ units

/-- The first unit of an empty device gets function 0. -/
def numberedFrom (empty : Bool) (r : PciRequest) (rs : List PciRequest) : List PciRequest :=
  if empty then ⟨0, r.unit⟩ :: rs else r :: rs

/-- The functions are different and not used. -/
def FitsDevice (T : PciSlots) (d : Nat) (rs : List PciRequest) : Prop :=
  (rs.map PciRequest.func).Nodup ∧ ∀ r ∈ rs, T (d, r.func) = none

/-- The devices without a unit of the user. -/
def freeDevices (pci : PciTable) : List Nat :=
  (List.range copciMaxSlots).filter fun d => usedFunctions (pci d) = []

/-- There is a device for every type with units that the user did not place, and they fit. -/
def UnitsFit (user : PciSlots) (units : List PciFunction) :
    List Nat → List (UInt8 × List PciRequest) → Prop
  | _, [] => True
  | free, (type, rs) :: blocks =>
    match leftUnits units rs with
    | [] => UnitsFit user units free blocks
    | r :: rs => ∃ d,
      (List.range copciMaxSlots).find? (fun d => d ∈ free ∨ headIs user d type) = some d ∧
      FitsDevice user d (numberedFrom (d ∈ free) r rs) ∧
      UnitsFit user units (free.filter (· ≠ d)) blocks

/-! ## One call after the other -/

/-- The device for a type. -/
def deviceFor (T : PciSlots) (type : UInt8) : Option Nat :=
  (List.range copciMaxSlots).find? fun d => T (d, 0) = none ∨ headIs T d type

/-- The slot for a unit that is not in the table. -/
def chosenSlot (T : PciSlots) (r : PciRequest) : Option (Nat × Nat) :=
  (deviceFor T r.unit.type).map fun d => (d, if T (d, 0) = none then 0 else r.func)

/-- Every unit is in the table or goes to a free slot. -/
def Placed : List PciRequest → PciSlots → Prop
  | [], _ => True
  | r :: rs, T => (T.Holds r.unit → Placed rs T) ∧ (¬ T.Holds r.unit →
      ∃ s, chosenSlot T r = some s ∧ T s = none ∧ Placed rs (Function.update T s (some r.unit)))

theorem placed_held {r : PciRequest} {rs : List PciRequest} {T : PciSlots}
    (held : T.Holds r.unit) : Placed (r :: rs) T ↔ Placed rs T := by
  rw [Placed]
  exact ⟨fun h => h.1 held, fun h => ⟨fun _ => h, fun new => absurd held new⟩⟩

theorem placed_new {r : PciRequest} {rs : List PciRequest} {T : PciSlots}
    (new : ¬ T.Holds r.unit) : Placed (r :: rs) T ↔ ∃ s, chosenSlot T r = some s ∧ T s = none ∧
      Placed rs (Function.update T s (some r.unit)) := by
  rw [Placed]
  exact ⟨fun h => h.2 new, fun h => ⟨fun held => absurd held new, fun _ => h⟩⟩

theorem find?_range_congr {n : Nat} {p q : Nat → Bool} (h : ∀ d < n, p d = q d) :
    (List.range n).find? p = (List.range n).find? q := by
  have members : ∀ xs : List Nat, (∀ d ∈ xs, p d = q d) → xs.find? p = xs.find? q := by
    intro xs
    induction xs with
    | nil => exact fun _ => rfl
    | cons x xs ih =>
      intro h
      rw [List.forall_mem_cons] at h
      rw [List.find?_cons, List.find?_cons, h.1, ih h.2]
  exact members _ fun d mem => h d (List.mem_range.mp mem)

theorem pciSpaceSlot_eq {t : PciTable} {r : PciRequest} (used : r.unit.type ≠ 0)
    (new : ¬ (pciSlots t).Holds r.unit) :
    pciSpaceSlot t r.func r.unit = chosenSlot (pciSlots t) r := by
  have missing : pciSpaceFind t r.unit ≠ true := fun h => new ((pciSpaceFind_iff used).mp h)
  have devices : (List.range copciMaxSlots).find? (fun x =>
      (t x 0).type = 0 ∨ (t x 0).type = r.unit.type) = deviceFor (pciSlots t) r.unit.type := by
    apply find?_range_congr
    intro d hd
    by_cases unused : (t d 0).type = 0
    · simp [pciSlots, unused]
    · have func : 0 < copciMaxFuncs := by decide
      simp [pciSlots, headIs, unused, hd, func]
  rw [pciSpaceSlot, devices, chosenSlot]
  cases found : deviceFor (pciSlots t) r.unit.type with
  | none => rfl
  | some d =>
    have hd := List.mem_range.mp (List.mem_of_find?_eq_some found)
    have head := @pciSlots_eq_none t d 0 hd (by decide)
    simp only [if_neg missing, Option.map_some, ← head]

/-- The calls place their units. -/
theorem placed_iff_places (rs : List PciRequest) (t : PciTable)
    (valid : ∀ r ∈ rs, r.func < copciMaxFuncs ∧ r.unit.type ≠ 0)
    (distinct : (rs.map PciRequest.unit).Nodup) :
    Placed rs (pciSlots t) ↔ SlotTable.Places (pciSlots t) (rs.map PciRequest.unit)
      (pciWritten rs t) (pciSlots (pciRun rs t)) := by
  induction rs generalizing t with
  | nil => exact ⟨fun _ => .nil _, fun _ => trivial⟩
  | cons r rs ih =>
    obtain ⟨⟨small, used⟩, valid⟩ := List.forall_mem_cons.mp valid
    obtain ⟨once, distinct⟩ := List.nodup_cons.mp distinct
    have rest := ih (pciSpaceAdd t r.func r.unit) valid distinct
    have stores := pciRun_stores rs (pciSpaceAdd t r.func r.unit) valid
    rw [List.map_cons, pciWritten]
    change _ ↔ SlotTable.Places _ _ _ (pciSlots (pciRun rs (pciSpaceAdd t r.func r.unit)))
    by_cases held : (pciSlots t).Holds r.unit
    · have nowhere : pciSpaceSlot t r.func r.unit = none := by
        rw [pciSpaceSlot]
        split
        · rfl
        · rw [if_pos ((pciSpaceFind_iff used).mpr held)]
      rw [pciSpaceAdd, nowhere] at rest ⊢
      rw [placed_held held, SlotTable.places_held held]
      exact rest
    · have slot := pciSpaceSlot_eq used held
      rw [placed_new held, SlotTable.places_new held, ← slot]
      cases chosen : pciSpaceSlot t r.func r.unit with
      | none =>
        constructor
        · rintro ⟨s, no, -⟩
          cases no
        · rintro ⟨s, ws, same, free, places⟩
          -- the later calls do not store the unit
          have held' := places.keeps (Function.update_self s (some r.unit) (pciSlots t))
          rw [pciSpaceAdd, chosen] at stores held'
          rcases stores.holds ⟨s, held'⟩ with earlier | later
          · exact absurd earlier held
          · exact absurd later once
      | some s =>
        obtain ⟨hx, hy⟩ := pciSpaceSlot_bounds small chosen
        rw [pciSpaceAdd, chosen] at rest ⊢
        simp only [pciSlots_set hx hy used] at rest
        constructor
        · rintro ⟨s', same, free, placed⟩
          cases same
          exact ⟨s, _, rfl, free, rest.mp placed⟩
        · rintro ⟨s', ws, same, free, places⟩
          cases same
          exact ⟨s, rfl, free, rest.mpr places⟩

/-! ## The units of a type -/

/-- Units stored in functions of a device. -/
def fillDevice (d : Nat) (rs : List PciRequest) (T : PciSlots) : PciSlots :=
  rs.foldl (fun T r => Function.update T (d, r.func) (some r.unit)) T

section

variable {T : PciSlots} {type : UInt8} {d : Nat} {rs more : List PciRequest}
  {units : List PciFunction}

theorem deviceFor_congr {T' : PciSlots} (h : ∀ x, T' (x, 0) = T (x, 0)) :
    deviceFor T' type = deviceFor T type := by
  apply find?_range_congr
  intro x _
  rw [decide_eq_decide, headIs, headIs, h]

/-- The device stays the first one when its function 0 gets a unit of the type. -/
theorem deviceFor_update {u : PciFunction} (device : deviceFor T u.type = some d) :
    deviceFor (Function.update T (d, 0) (some u)) u.type = some d := by
  rw [deviceFor, List.find?_range_eq_some] at device ⊢
  obtain ⟨-, inside, before⟩ := device
  refine ⟨by simp [headIs], inside, fun x hx => ?_⟩
  have other : (x, 0) ≠ (d, 0) := fun same => Nat.ne_of_lt hx (congrArg Prod.fst same)
  have first := before x hx
  simp only [headIs, Function.update_of_ne other] at first ⊢
  exact first

theorem chosenSlot_eq {r : PciRequest} (device : deviceFor T r.unit.type = some d) :
    chosenSlot T r = some (d, if T (d, 0) = none then 0 else r.func) := by
  rw [chosenSlot, device, Option.map_some]

theorem leftUnits_cons_of_mem {r : PciRequest} (h : r.unit ∈ units) :
    leftUnits units (r :: rs) = leftUnits units rs :=
  List.filter_cons_of_neg (by simpa using h)

theorem leftUnits_cons_of_not_mem {r : PciRequest} (h : r.unit ∉ units) :
    leftUnits units (r :: rs) = r :: leftUnits units rs :=
  List.filter_cons_of_pos (by simpa using h)

/-- What the units of a call that is made later have to do with the table. -/
structure BlockOf (T : PciSlots) (units : List PciFunction) (type : UInt8)
    (rs : List PciRequest) : Prop where
  types : ∀ r ∈ rs, r.unit.type = type
  distinct : (rs.map PciRequest.unit).Nodup
  held : ∀ r ∈ rs, T.Holds r.unit ↔ r.unit ∈ units

theorem BlockOf.tail {r : PciRequest} (h : BlockOf T units type (r :: rs)) :
    BlockOf T units type rs :=
  ⟨fun q mem => h.types q (List.mem_cons_of_mem r mem), (List.nodup_cons.mp h.distinct).2,
    fun q mem => h.held q (List.mem_cons_of_mem r mem)⟩

/-- The units behind a unit that was stored in a free slot. -/
theorem BlockOf.update {r : PciRequest} {s : Nat × Nat} (h : BlockOf T units type (r :: rs))
    (free : T s = none) : BlockOf (Function.update T s (some r.unit)) units type rs := by
  obtain ⟨once, distinct⟩ := List.nodup_cons.mp h.distinct
  refine ⟨h.tail.types, distinct, fun q mem => ?_⟩
  have other : q.unit ≠ r.unit := fun same => once (same ▸ List.mem_map_of_mem mem)
  rw [SlotTable.holds_update free, h.tail.held q mem]
  exact ⟨fun either => either.resolve_right other, .inl⟩

theorem placed_none (block : BlockOf T units type rs) (none : leftUnits units rs = []) :
    Placed (rs ++ more) T ↔ Placed more T := by
  induction rs with
  | nil => rfl
  | cons r rs ih =>
    by_cases mem : r.unit ∈ units
    · rw [leftUnits_cons_of_mem mem] at none
      rw [List.cons_append, placed_held ((block.held r List.mem_cons_self).mpr mem),
        ih block.tail none]
    · rw [leftUnits_cons_of_not_mem mem] at none
      cases none

theorem not_placed_of_no_device (block : BlockOf T units type rs)
    (device : deviceFor T type = none) (some : leftUnits units rs ≠ []) :
    ¬ Placed (rs ++ more) T := by
  induction rs with
  | nil => exact absurd rfl some
  | cons r rs ih =>
    by_cases mem : r.unit ∈ units
    · rw [leftUnits_cons_of_mem mem] at some
      rw [List.cons_append, placed_held ((block.held r List.mem_cons_self).mpr mem)]
      exact ih block.tail some
    · have new : ¬ T.Holds r.unit := fun h => mem ((block.held r List.mem_cons_self).mp h)
      rw [List.cons_append, placed_new new, chosenSlot, block.types r List.mem_cons_self, device]
      rintro ⟨s, no, -⟩
      cases no

theorem update_free_eq_none {f g : Nat} {u : PciFunction} :
    Function.update T (d, f) (some u) (d, g) = none ↔ g ≠ f ∧ T (d, g) = none := by
  by_cases same : g = f
  · subst same
    simp
  · have other : (d, g) ≠ (d, f) := fun h => same (congrArg Prod.snd h)
    rw [Function.update_of_ne other]
    exact ⟨fun none => ⟨same, none⟩, fun h => h.2⟩

theorem fitsDevice_cons {r : PciRequest} :
    FitsDevice T d (r :: rs) ↔ T (d, r.func) = none ∧
      FitsDevice (Function.update T (d, r.func) (some r.unit)) d rs := by
  simp only [FitsDevice, List.map_cons, List.nodup_cons, List.forall_mem_cons,
    update_free_eq_none, List.mem_map, not_exists, not_and]
  constructor
  · rintro ⟨⟨once, distinct⟩, free, others⟩
    exact ⟨free, distinct, fun q mem => ⟨once q mem, others q mem⟩⟩
  · rintro ⟨free, distinct, others⟩
    exact ⟨⟨fun q mem => (others q mem).1, distinct⟩, free, fun q mem => (others q mem).2⟩

/-- Another function of a device in use does not change where a type goes. -/
theorem update_head {f : Nat} {u : PciFunction} (used : T (d, 0) ≠ none) (free : T (d, f) = none)
    (x : Nat) : Function.update T (d, f) (some u) (x, 0) = T (x, 0) := by
  apply Function.update_of_ne
  intro same
  obtain ⟨-, rfl⟩ := Prod.mk.inj same
  exact used free

/-- Function 0 of the device is used. -/
theorem placed_used (block : BlockOf T units type rs) (device : deviceFor T type = some d)
    (used : T (d, 0) ≠ none) :
    Placed (rs ++ more) T ↔ FitsDevice T d (leftUnits units rs) ∧
      Placed more (fillDevice d (leftUnits units rs) T) := by
  induction rs generalizing T with
  | nil => simp [leftUnits, FitsDevice, fillDevice]
  | cons r rs ih =>
    have first := List.mem_cons_self (a := r) (l := rs)
    by_cases mem : r.unit ∈ units
    · rw [leftUnits_cons_of_mem mem, List.cons_append, placed_held ((block.held r first).mpr mem)]
      exact ih block.tail device used
    · have new : ¬ T.Holds r.unit := fun h => mem ((block.held r first).mp h)
      rw [leftUnits_cons_of_not_mem mem, List.cons_append, placed_new new,
        chosenSlot_eq ((block.types r first).symm ▸ device), if_neg used]
      have later : T (d, r.func) = none →
          (Placed (rs ++ more) (Function.update T (d, r.func) (some r.unit)) ↔
            FitsDevice (Function.update T (d, r.func) (some r.unit)) d (leftUnits units rs) ∧
              Placed more (fillDevice d (r :: leftUnits units rs) T)) := by
        intro free
        have head := @update_head T d r.func r.unit used free
        exact ih (block.update free) ((deviceFor_congr head).trans device) (head d ▸ used)
      rw [fitsDevice_cons, and_assoc]
      constructor
      · rintro ⟨s, same, free, placed⟩
        cases same
        exact ⟨free, (later free).mp placed⟩
      · rintro ⟨free, others⟩
        exact ⟨_, rfl, free, (later free).mpr others⟩

/-- The device is empty. -/
theorem placed_empty (block : BlockOf T units type rs) (device : deviceFor T type = some d)
    (empty : ∀ y, T (d, y) = none) {r : PciRequest} {left : List PciRequest}
    (h : leftUnits units rs = r :: left) :
    Placed (rs ++ more) T ↔ FitsDevice T d (⟨0, r.unit⟩ :: left) ∧
      Placed more (fillDevice d (⟨0, r.unit⟩ :: left) T) := by
  induction rs with
  | nil => cases h
  | cons q rs ih =>
    have first := List.mem_cons_self (a := q) (l := rs)
    by_cases mem : q.unit ∈ units
    · rw [leftUnits_cons_of_mem mem] at h
      rw [List.cons_append, placed_held ((block.held q first).mpr mem)]
      exact ih block.tail h
    · have new : ¬ T.Holds q.unit := fun held => mem ((block.held q first).mp held)
      rw [leftUnits_cons_of_not_mem mem] at h
      cases h
      have typed := block.types r first
      subst typed
      have later := @placed_used (Function.update T (d, 0) (some r.unit)) r.unit.type d rs more
        units (block.update (empty 0)) (deviceFor_update device) (by simp)
      rw [List.cons_append, placed_new new, chosenSlot_eq device, if_pos (empty 0),
        fitsDevice_cons, and_assoc]
      constructor
      · rintro ⟨s, same, free, placed⟩
        cases same
        exact ⟨free, later.mp placed⟩
      · rintro ⟨free, others⟩
        exact ⟨_, rfl, free, later.mpr others⟩

/-! ## One type after the other -/

theorem fillDevice_of_ne {s : Nat × Nat} (other : ∀ r ∈ rs, s ≠ (d, r.func)) :
    fillDevice d rs T s = T s := by
  induction rs generalizing T with
  | nil => rfl
  | cons r rs ih =>
    obtain ⟨first, others⟩ := List.forall_mem_cons.mp other
    have rest := @ih (Function.update T (d, r.func) (some r.unit)) others
    rw [Function.update_of_ne first] at rest
    exact rest

theorem fillDevice_cases (s : Nat × Nat) :
    fillDevice d rs T s = T s ∨ ∃ r ∈ rs, fillDevice d rs T s = some r.unit := by
  induction rs generalizing T with
  | nil => exact .inl rfl
  | cons r rs ih =>
    rcases @ih (Function.update T (d, r.func) (some r.unit)) with same | ⟨q, mem, here⟩
    · by_cases first : s = (d, r.func)
      · refine .inr ⟨r, List.mem_cons_self, same.trans ?_⟩
        rw [first, Function.update_self]
      · refine .inl (same.trans ?_)
        rw [Function.update_of_ne first]
    · exact .inr ⟨q, List.mem_cons_of_mem r mem, here⟩

/-- The table before the units of the types are added: `user` is the one of the user, and `free` are
the devices that are empty. -/
structure TypesLeft (user T : PciSlots) (units : List PciFunction) (free : List Nat)
    (types : List UInt8) : Prop where
  empty : ∀ d < copciMaxSlots, d ∈ free ↔ T (d, 0) = none
  row : ∀ d < copciMaxSlots, T (d, 0) = none → ∀ y, T (d, y) = none
  unused : ∀ d ∈ free, ∀ y, user (d, y) = none
  head : ∀ type ∈ types, ∀ d < copciMaxSlots, headIs T d type = headIs user d type
  same : ∀ type ∈ types, ∀ d < copciMaxSlots, headIs user d type = true →
    ∀ y, T (d, y) = user (d, y)
  held : ∀ u : PciFunction, u.type ∈ types → (T.Holds u ↔ u ∈ units)

variable {user : PciSlots} {free : List Nat} {types : List UInt8}

theorem TypesLeft.deviceFor (left : TypesLeft user T units free (type :: types)) :
    deviceFor T type = (List.range copciMaxSlots).find? fun d => d ∈ free ∨ headIs user d type := by
  apply find?_range_congr
  intro x hx
  rw [decide_eq_decide, left.empty x hx, left.head type List.mem_cons_self x hx]

/-- A device in use by the user's units of the type has only these. -/
theorem TypesLeft.fits_iff (left : TypesLeft user T units free (type :: types))
    (inside : d < copciMaxSlots) (found : d ∈ free ∨ headIs user d type) :
    FitsDevice T d rs ↔ FitsDevice user d rs := by
  have row : ∀ y, T (d, y) = user (d, y) := by
    intro y
    rcases found with empty | head
    · rw [left.unused d empty, left.row d inside ((left.empty d inside).mp empty)]
    · exact left.same type List.mem_cons_self d inside head y
  simp only [FitsDevice, row]

theorem TypesLeft.skip (left : TypesLeft user T units free (type :: types)) :
    TypesLeft user T units free types :=
  ⟨left.empty, left.row, left.unused, fun τ mem => left.head τ (List.mem_cons_of_mem _ mem),
    fun τ mem => left.same τ (List.mem_cons_of_mem _ mem),
    fun u mem => left.held u (List.mem_cons_of_mem _ mem)⟩

theorem headIs_iff {x : Nat} : headIs T x type = true ↔ ∃ u, T (x, 0) = some u ∧ u.type = type := by
  simp [headIs, Option.any_eq_true]

/-- The table after a device was filled with units of the first type. -/
theorem TypesLeft.fill (left : TypesLeft user T units free (type :: types))
    (once : type ∉ types) (inside : d < copciMaxSlots) (found : d ∈ free ∨ headIs user d type)
    (typed : ∀ r ∈ rs, r.unit.type = type) (fits : ∀ r ∈ rs, T (d, r.func) = none)
    (head : headIs (fillDevice d rs T) d type) :
    TypesLeft user (fillDevice d rs T) units (free.filter (· ≠ d)) types := by
  have others : ∀ x y, x ≠ d → fillDevice d rs T (x, y) = T (x, y) := by
    intro x y other
    exact fillDevice_of_ne fun r _ same => other (congrArg Prod.fst same)
  have stays : ∀ s u, T s = some u → fillDevice d rs T s = some u := by
    intro s u here
    rw [fillDevice_of_ne, here]
    rintro r mem rfl
    rw [fits r mem] at here
    cases here
  -- no other type begins in the device
  have notOther : ∀ τ ∈ types, headIs user d τ = false := by
    intro τ mem
    rw [← left.head τ (List.mem_cons_of_mem _ mem) d inside]
    by_contra is
    obtain ⟨u, here, rfl⟩ := headIs_iff.mp (Bool.not_eq_false _ ▸ is)
    obtain ⟨v, here', typed'⟩ := headIs_iff.mp head
    rw [stays _ _ here] at here'
    cases here'
    exact once (typed' ▸ mem)
  have unequal : ∀ τ ∈ types, ∀ x, headIs user x τ = true → x ≠ d := by
    rintro τ mem x is rfl
    rw [notOther τ mem] at is
    cases is
  refine ⟨fun x hx => ?_, fun x hx empty y => ?_, fun x mem y => ?_, fun τ mem x hx => ?_,
    fun τ mem x hx is y => ?_, fun u mem => ?_⟩
  · rw [List.mem_filter, decide_eq_true_eq]
    by_cases same : x = d
    · subst same
      obtain ⟨u, here, -⟩ := headIs_iff.mp head
      rw [here]
      exact ⟨fun h => absurd rfl h.2, fun none => by cases none⟩
    · rw [others x 0 same, ← left.empty x hx]
      exact ⟨fun h => h.1, fun h => ⟨h, same⟩⟩
  · by_cases same : x = d
    · subst same
      obtain ⟨u, here, -⟩ := headIs_iff.mp head
      rw [here] at empty
      cases empty
    · rw [others x 0 same] at empty
      rw [others x y same, left.row x hx empty]
  · exact left.unused x (List.mem_of_mem_filter mem) y
  · by_cases same : x = d
    · subst same
      rw [notOther τ mem]
      by_contra is
      obtain ⟨u, here, rfl⟩ := headIs_iff.mp (Bool.not_eq_false _ ▸ is)
      obtain ⟨v, here', typed'⟩ := headIs_iff.mp head
      rw [here] at here'
      cases here'
      exact once (typed' ▸ mem)
    · rw [← left.head τ (List.mem_cons_of_mem _ mem) x hx, headIs, headIs, others x 0 same]
  · rw [others x y (unequal τ mem x is)]
    exact left.same τ (List.mem_cons_of_mem _ mem) x hx is y
  · rw [← left.held u (List.mem_cons_of_mem _ mem)]
    constructor
    · rintro ⟨s, here⟩
      rcases @fillDevice_cases T d rs s with same | ⟨r, mem', here'⟩
      · exact ⟨s, same ▸ here⟩
      · rw [here] at here'
        cases here'
        exact absurd (typed r mem' ▸ mem) once
    · rintro ⟨s, here⟩
      exact ⟨s, stays s u here⟩

/-- Function 0 of a device has the type when its units were stored. -/
theorem headIs_fillDevice {r : PciRequest} (typed : ∀ q ∈ r :: rs, q.unit.type = type)
    (fits : ∀ q ∈ r :: rs, T (d, q.func) = none) (head : r.func = 0 ∨ headIs T d type = true) :
    headIs (fillDevice d (r :: rs) T) d type = true := by
  rw [headIs_iff]
  rcases head with zero | used
  · rcases @fillDevice_cases (Function.update T (d, r.func) (some r.unit)) d rs (d, 0) with
      same | ⟨q, mem, here⟩
    · rw [zero, Function.update_self] at same
      refine ⟨r.unit, ?_, typed r List.mem_cons_self⟩
      rw [← zero] at same ⊢
      exact same
    · exact ⟨q.unit, here, typed q (List.mem_cons_of_mem r mem)⟩
  · obtain ⟨u, here, rfl⟩ := headIs_iff.mp used
    refine ⟨u, ?_, rfl⟩
    rw [fillDevice_of_ne, here]
    intro q mem same
    rw [same, fits q mem] at here
    cases here

/-- The units are placed, type after type, if they fit. -/
theorem placed_iff_unitsFit (blocks : List (UInt8 × List PciRequest))
    (left : TypesLeft user T units free (blocks.map Prod.fst))
    (once : (blocks.map Prod.fst).Nodup) (typed : ∀ b ∈ blocks, ∀ r ∈ b.2, r.unit.type = b.1)
    (distinct : ∀ b ∈ blocks, (b.2.map PciRequest.unit).Nodup) :
    Placed (blocks.flatMap Prod.snd) T ↔ UnitsFit user units free blocks := by
  induction blocks generalizing T free with
  | nil => exact Iff.rfl
  | cons b blocks ih =>
    obtain ⟨type, rs⟩ := b
    obtain ⟨new, once⟩ := List.nodup_cons.mp once
    obtain ⟨typedHere, typed⟩ := List.forall_mem_cons.mp typed
    obtain ⟨distinctHere, distinct⟩ := List.forall_mem_cons.mp distinct
    have block : BlockOf T units type rs :=
      ⟨typedHere, distinctHere, fun r mem => left.held r.unit
        (typedHere r mem ▸ List.mem_cons_self)⟩
    rw [List.flatMap_cons, UnitsFit]
    cases h : leftUnits units rs with
    | nil =>
      rw [placed_none block h]
      exact ih left.skip once typed distinct
    | cons r rest =>
      have device := left.deviceFor
      cases first : deviceFor T type with
      | none =>
        rw [first] at device
        constructor
        · intro placed
          exact absurd placed (not_placed_of_no_device block first (by rw [h]; nofun))
        · rintro ⟨d, found, -⟩
          rw [← device] at found
          cases found
      | some d =>
        rw [first] at device
        have inside := List.mem_range.mp (List.mem_of_find?_eq_some first)
        have found : d ∈ free ∨ headIs user d type = true :=
          of_decide_eq_true (@List.find?_some _ (fun d => decide (d ∈ free ∨ headIs user d type))
            d _ device.symm)
        have empty := left.empty d inside
        have members : ∀ q ∈ r :: rest, q.unit.type = type := by
          intro q mem
          rw [← h] at mem
          exact typedHere q (List.mem_of_mem_filter mem)
        have typedNow : ∀ q ∈ numberedFrom (d ∈ free) r rest, q.unit.type = type := by
          rw [numberedFrom]
          split
          · exact List.forall_mem_cons.mpr (List.forall_mem_cons.mp members)
          · exact members
        have placed : Placed (rs ++ blocks.flatMap Prod.snd) T ↔
            FitsDevice T d (numberedFrom (d ∈ free) r rest) ∧
              Placed (blocks.flatMap Prod.snd)
                (fillDevice d (numberedFrom (d ∈ free) r rest) T) := by
          by_cases unused : d ∈ free
          · rw [placed_empty block first (left.row d inside (empty.mp unused)) h]
            simp only [numberedFrom, unused, decide_true, if_true]
          · rw [placed_used block first fun none => unused (empty.mpr none), h]
            simp only [numberedFrom, unused, decide_false]
            rfl
        have rest : FitsDevice T d (numberedFrom (d ∈ free) r rest) →
            (Placed (blocks.flatMap Prod.snd)
                (fillDevice d (numberedFrom (d ∈ free) r rest) T) ↔
              UnitsFit user units (free.filter (· ≠ d)) blocks) := by
          intro fits
          refine ih (left.fill new inside found typedNow fits.2 ?_) once typed distinct
          by_cases unused : d ∈ free
          · simp only [numberedFrom, unused, decide_true, if_true] at typedNow fits ⊢
            exact headIs_fillDevice typedNow fits.2 (.inl rfl)
          · have head := left.head type List.mem_cons_self d inside
            simp only [numberedFrom, unused, decide_false, Bool.false_eq_true, if_false] at *
            exact headIs_fillDevice typedNow fits.2 (.inr (head ▸ found.resolve_left id))
        rw [placed, left.fits_iff inside found]
        rw [left.fits_iff inside found] at rest
        constructor
        · rintro ⟨fits, others⟩
          exact ⟨d, device.symm, fits, (rest fits).mp others⟩
        · rintro ⟨d', found', fits, others⟩
          rw [← device] at found'
          cases found'
          exact ⟨fits, (rest fits).mpr others⟩

end

/-! ## The condition -/

/-- The types in the order in which their units are added. -/
def pciBlocks (c : PciConfig) : List (UInt8 × List PciRequest) :=
  [(pciDeviceVideo, videoRequests c), (pciDeviceScsi, scsiRequests c),
    (pciDeviceNetwork, networkRequests c)]

theorem pciRequests_eq (c : PciConfig) : pciRequests c = (pciBlocks c).flatMap Prod.snd := by
  simp [pciRequests, pciBlocks]

theorem pciBlocks_typed (c : PciConfig) : ∀ b ∈ pciBlocks c, ∀ r ∈ b.2, r.unit.type = b.1 := by
  simp only [pciBlocks, List.forall_mem_cons]
  refine ⟨fun r mem => ?_, fun r mem => ?_, fun r mem => ?_,
    fun b mem => absurd mem List.not_mem_nil⟩
  · obtain ⟨x, -, rfl⟩ := List.mem_map.mp mem
    rfl
  · simp only [scsiRequests] at mem
    split at mem
    · rw [List.mem_singleton.mp mem]
    · cases mem
  · obtain ⟨x, -, rfl⟩ := List.mem_map.mp mem
    rfl

theorem pciBlocks_distinct (c : PciConfig) :
    ∀ b ∈ pciBlocks c, (b.2.map PciRequest.unit).Nodup := by
  have all := addedUnits_nodup c
  rw [addedUnits, pciRequests_eq, List.map_flatMap, List.nodup_flatMap] at all
  exact all.1

theorem settledDevice_unused {row : Nat → PciFunction} :
    (settledDevice row 0).type = 0 ↔ usedFunctions row = [] := by
  rw [settledDevice]
  by_cases unused : (row 0).type = 0
  · rw [if_pos unused]
    cases h : usedFunctions row with
    | nil => simp
    | cons u us =>
      have mem : u ∈ usedFunctions row := by
        rw [h]
        exact List.mem_cons_self
      simp [used_of_mem_usedBelow mem]
  · rw [if_neg unused]
    have mem : row 0 ∈ usedFunctions row :=
      List.mem_filter.mpr ⟨List.mem_map_of_mem (List.mem_range.mpr (by decide)),
        decide_eq_true unused⟩
    refine ⟨fun zero => absurd zero unused, fun none => ?_⟩
    rw [none] at mem
    cases mem

theorem userSlots_empty {pci : PciTable} {d : Nat} (inside : d < copciMaxSlots) :
    d ∈ freeDevices pci ↔ userSlots pci (d, 0) = none := by
  rw [freeDevices, List.mem_filter, decide_eq_true_eq, ← settledDevice_unused]
  have slot := @pciSlots_eq_none (fun x => settledDevice (pci x)) d 0 inside (by decide)
  exact (and_iff_right (List.mem_range.mpr inside)).trans slot.symm

theorem userSlots_row {pci : PciTable} {d : Nat} (inside : d < copciMaxSlots)
    (empty : userSlots pci (d, 0) = none) (y : Nat) : userSlots pci (d, y) = none := by
  have none : usedFunctions (pci d) = [] :=
    of_decide_eq_true (List.mem_filter.mp ((userSlots_empty inside).mpr empty)).2
  have unused := settledDevice_unused.mpr none
  have row : (settledDevice (pci d) y).type = 0 := by
    rw [settledDevice] at unused ⊢
    split
    · simp [none]
    · next used =>
      rw [if_neg used] at unused
      exact absurd unused used
  simp [userSlots, pciSlots, row]

/-- The table holds every unit once exactly if the user placed none twice and the units that the
user did not place fit. -/
theorem pciAssigned_iff (c : PciConfig) :
    PciAssigned c ↔ (pciUnits c.pci).Nodup ∧
      UnitsFit (userSlots c.pci) (pciUnits c.pci) (freeDevices c.pci) (pciBlocks c) := by
  have stores := pciRun_stores (pciRequests c) (fun x => fixupDevice (c.pci x))
    fun r mem => request_bounds mem
  have places := placed_iff_places (pciRequests c) (fun x => fixupDevice (c.pci x))
    (fun r mem => request_bounds mem) (addedUnits_nodup c)
  rw [← coPciSetconfig_eq, pciSlots_fixup] at stores places
  have single := single_iff_nodup fun x => settledDevice (c.pci x)
  rw [pciUnits_settled] at single
  have left : TypesLeft (userSlots c.pci) (userSlots c.pci) (pciUnits c.pci) (freeDevices c.pci)
      ((pciBlocks c).map Prod.fst) :=
    ⟨fun d hd => userSlots_empty hd, fun d hd empty => userSlots_row hd empty,
      fun d mem y => by
        have hd := List.mem_range.mp (List.mem_filter.mp mem).1
        exact userSlots_row hd ((userSlots_empty hd).mp mem) y,
      fun _ _ _ _ => rfl, fun _ _ _ _ _ _ => rfl, fun u _ => holds_userSlots⟩
  have fits := placed_iff_unitsFit (pciBlocks c) left
    (by decide : [pciDeviceVideo, pciDeviceScsi, pciDeviceNetwork].Nodup) (pciBlocks_typed c)
    (pciBlocks_distinct c)
  refine (pciAssigned_exact c).trans ((stores.exact_iff (addedUnits_nodup c)).trans ?_)
  exact and_congr single (places.symm.trans (pciRequests_eq c ▸ fits))

/-- Nine network interfaces: the ninth is stored over the first. -/
theorem pciAssigned_ninth : ¬ PciAssigned ⟨fun _ _ => ⟨0, 0⟩, fun _ => false, fun _ => false,
    fun x => x < 9⟩ := by
  intro all
  exact absurd all.once (by decide +kernel)

/-- A SCSI host and eight network interfaces. -/
example : (coPciRequest (coPciSetconfig ⟨fun _ _ => ⟨0, 0⟩, fun _ => false, fun x => x < 3,
    fun x => x < 8⟩)).length = 9 := by decide +kernel

end CoLinux
