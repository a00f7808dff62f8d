import CoLinux.Kernel.Proofs.DescriptorCloses

/-!
# The requests keep the books
-/

namespace CoLinux.Opens

open Lib

variable {fr : Frame} {s : Opens} {d m i : Nat} {x : Descriptor} {y : SharedMonitor}
  {f : Descriptor → Descriptor}

theorem start_inv : Inv {} start where
  refCount := nofun
  noRefs := fun _ _ => ⟨rfl, rfl, rfl⟩
  referenced := nofun
  closing := nofun
  onceClosing := List.nodup_nil
  refcount := nofun
  noPointers := fun _ _ => ⟨rfl, rfl⟩
  pointed := nofun
  owner := nofun
  oneOwner := fun _ _ _ owns => owns.elim fun _ h => absurd h.1 nofun
  listed := fun _ _ => iff_of_false nofun fun owns => owns.elim fun _ h => h.elim fun _ h =>
    absurd h.1 nofun
  ending := nofun
  onceListed := List.nodup_nil
  count := rfl
  flag := nofun
  emptied := nofun
  shape := nofun
  callers := nofun
  opens := rfl
  faults := rfl

namespace Inv

theorem coManagerOpen_granted (inv : Inv {} s) : Inv {} (s.coManagerOpen .granted) := by
  have fresh := s.descs.fresh s.descs.next (Nat.le_refl _)
  have none := inv.noRefs _ fresh
  have pointersEq : ∀ m, pointers (s.coManagerOpen .granted).descs m = pointers s.descs m :=
    fun m => Arena.total_alloc
  have ownsEq : ∀ d m, Owns (s.coManagerOpen .granted).descs d m ↔ Owns s.descs d m := by
    intro d m
    constructor
    · rintro ⟨x, held, flagged, points⟩
      rcases Arena.alloc_cases held with ⟨-, rfl⟩ | ⟨-, held⟩
      · exact absurd flagged nofun
      · exact ⟨x, held, flagged, points⟩
    · rintro ⟨x, held, flagged, points⟩
      exact ⟨x, Arena.get_alloc held, flagged, points⟩
  refine
    { refCount := ?_
      noRefs := ?_
      referenced := ?_
      closing := nofun
      onceClosing := List.nodup_nil
      refcount := ?_
      noPointers := ?_
      pointed := inv.pointed
      owner := ?_
      oneOwner := ?_
      listed := ?_
      ending := nofun
      onceListed := inv.onceListed
      count := inv.count
      flag := inv.flag
      emptied := inv.emptied
      shape := inv.shape
      callers := fun c hc => (inv.callers c hc).imp fun _ h => ⟨Arena.get_alloc h.1, h.2⟩
      opens := ?_
      faults := inv.faults }
  · intro d x held
    rcases Arena.alloc_cases held with ⟨rfl, rfl⟩ | ⟨-, held⟩
    · show (1 : Int) = (1 + 0 + slots s.mons s.descs.next + s.incoming.count s.descs.next + 0 : Nat)
      rw [none.1, none.2.1]
      rfl
    · exact inv.refCount d x held
  · intro d gone
    refine inv.noRefs d ?_
    have other : d ≠ s.descs.next := by
      rintro rfl
      exact absurd (Arena.get_alloc_next.symm.trans gone) nofun
    exact (Arena.get_alloc_ne other).symm.trans gone
  · intro d x held notIn
    rcases Arena.alloc_cases held with ⟨-, rfl⟩ | ⟨-, held⟩
    · exact Int.one_pos
    · exact inv.referenced d x held notIn
  · intro m y live
    rw [pointersEq]
    exact inv.refcount m y live
  · intro m gone
    rw [pointersEq]
    exact inv.noPointers m gone
  · intro d x held flagged notIn
    rcases Arena.alloc_cases held with ⟨-, rfl⟩ | ⟨-, held⟩
    · exact absurd flagged nofun
    · exact inv.owner d x held flagged notIn
  · intro i j m one two
    exact inv.oneOwner i j m ((ownsEq i m).mp one) ((ownsEq j m).mp two)
  · intro m other
    exact (inv.listed m other).trans (exists_congr fun i => (ownsEq i m).symm)
  · show s.numOpens + 1 = ((s.descs.alloc _).total fun _ => 1 : Nat)
    rw [Arena.total_alloc, inv.opens]
    rfl

theorem coManagerOpen (inv : Inv {} s) (answer : OpenAnswer) :
    Inv {} (s.coManagerOpen answer) := by
  cases answer with
  | granted => exact inv.coManagerOpen_granted
  | noMutex => exact { inv with }
  | noMemory | noUserspace => exact inv

/-- A descriptor that points to no monitor has no ioctl on one. -/
theorem idle_of_unpointed (inv : Inv fr s) (held : s.descs.get d = some x)
    (points : x.monitor = none) : s.Idle d := by
  intro c hc same
  obtain ⟨x', held', -, points'⟩ := inv.callers c hc
  rw [same, held] at held'
  cases held'
  exact absurd (points.symm.trans points') nofun

/-- A descriptor that is in no slot becomes the owner of a new monitor. -/
theorem create (inv : Inv {} s) (held : s.descs.get d = some x) (unslotted : slots s.mons d = 0)
    (id : Nat) (granted : Bool) : Inv {} (s.create d id granted) := by
  rw [Opens.create, withDesc_of_held held]
  split
  · exact inv
  rename_i free
  have points : x.monitor = none := by simpa using (not_or.mp free).1
  have fresh := s.mons.fresh s.mons.next (Nat.le_refl _)
  have zero := inv.noPointers _ fresh
  have notListed : s.mons.next ∉ s.monitors := by
    intro mem
    obtain ⟨i, x', held', -, points'⟩ := (inv.listed _ (Option.some_ne_none _).symm).mp mem
    have pos := pos_of_pointer held' points'
    omega
  have slotsEq : ∀ i, slots (s.coMonitorCreate id).mons i = slots s.mons i := by
    intro i
    refine Arena.total_alloc.trans ?_
    rw [List.count_eq_zero.mpr (by simp [noModules])]
    rfl
  have pointersEq : ∀ m, pointers (s.descs.modify d fun x =>
      { x with monitor := some s.mons.next, monitorOwner := true }) m =
        pointers s.descs m + (if s.mons.next = m then 1 else 0) :=
    pointers_point held points rfl
  have ownsEq : ∀ i m, Owns (s.descs.modify d fun x =>
      { x with monitor := some s.mons.next, monitorOwner := true }) i m ↔
        Owns s.descs i m ∨ i = d ∧ s.mons.next = m := by
    intro i m
    by_cases same : i = d
    · subst same
      simp [Owns, held, points]
    · simp [Owns, Arena.get_modify_ne same, same]
  have newNotOwned : ∀ i, ¬ Owns s.descs i s.mons.next := fun i owns =>
    notListed ((inv.listed _ (Option.some_ne_none _).symm).mpr ⟨i, owns⟩)
  rw [setDesc_of_held (s := s.coMonitorCreate id) held]
  refine
    { refCount := ?_
      noRefs := ?_
      referenced := ?_
      closing := fun _ mem => absurd mem List.not_mem_nil
      onceClosing := List.nodup_nil
      refcount := ?_
      noPointers := ?_
      pointed := ?_
      owner := ?_
      oneOwner := ?_
      listed := ?_
      ending := fun _ ending => absurd ending.symm (Option.some_ne_none _)
      onceListed := List.nodup_cons.mpr ⟨notListed, inv.onceListed⟩
      count := ?_
      flag := ?_
      emptied := ?_
      shape := ?_
      callers := fun c hc => (inv.callers c hc).modify_ne (inv.idle_of_unpointed held points c hc)
      opens := inv.opens_modify
      faults := inv.faults }
  · intro i x' held'
    dsimp only
    rw [slotsEq]
    rcases Arena.modify_cases held' with ⟨rfl, x'', held'', rfl⟩ | ⟨-, held'⟩
    · exact inv.refCount _ x'' held''
    · exact inv.refCount i x' held'
  · intro i gone
    dsimp only
    rw [slotsEq]
    exact inv.noRefs i (Arena.modify_eq_none.mp gone)
  · intro i x' held' notIn
    rcases Arena.modify_cases held' with ⟨rfl, x'', held'', rfl⟩ | ⟨-, held'⟩
    · exact inv.referenced _ x'' held'' notIn
    · exact inv.referenced i x' held' notIn
  · intro m y live
    have eq := pointersEq m
    rcases Arena.alloc_cases live with ⟨rfl, rfl⟩ | ⟨other, live⟩
    · rw [if_pos rfl, zero.1] at eq
      show (1 : Int) = (pointers (s.descs.modify d _) s.mons.next + 0 : Nat)
      rw [eq]
      rfl
    · rw [if_neg other.symm] at eq
      have counted := inv.refcount m y live
      show y.refcount = (pointers (s.descs.modify d _) m + 0 : Nat)
      rw [eq]
      exact counted
  · intro m gone
    have other : m ≠ s.mons.next := by
      rintro rfl
      exact absurd (Arena.get_alloc_next.symm.trans gone) (Option.some_ne_none _)
    have eq := pointersEq m
    rw [if_neg other.symm] at eq
    have none := inv.noPointers m ((Arena.get_alloc_ne other).symm.trans gone)
    exact ⟨eq.trans none.1, rfl⟩
  · intro m y live
    rcases Arena.alloc_cases live with ⟨rfl, rfl⟩ | ⟨-, live⟩
    · exact Int.one_pos
    · exact inv.pointed m y live
  · intro i x' held' flagged notIn
    dsimp only
    rw [slotsEq]
    rcases Arena.modify_cases held' with ⟨rfl, x'', -, rfl⟩ | ⟨-, held'⟩
    · exact ⟨unslotted, rfl⟩
    · exact inv.owner i x' held' flagged notIn
  · intro i j m one two
    rcases (ownsEq i m).mp one with old | ⟨rfl, rfl⟩
    · rcases (ownsEq j m).mp two with old' | ⟨rfl, rfl⟩
      · exact inv.oneOwner i j m old old'
      · exact absurd old (newNotOwned i)
    · rcases (ownsEq j _).mp two with old | ⟨rfl, -⟩
      · exact absurd old (newNotOwned j)
      · rfl
  · intro m _
    have old := inv.listed m (Option.some_ne_none _).symm
    show m ∈ s.mons.next :: s.monitors ↔ ∃ i, Owns (s.descs.modify d _) i m
    rw [List.mem_cons, old]
    constructor
    · rintro (rfl | ⟨i, owns⟩)
      · exact ⟨d, (ownsEq d _).mpr (.inr ⟨rfl, rfl⟩)⟩
      · exact ⟨i, (ownsEq i m).mpr (.inl owns)⟩
    · rintro ⟨i, owns⟩
      rcases (ownsEq i m).mp owns with owns | ⟨-, rfl⟩
      · exact .inr ⟨i, owns⟩
      · exact .inl rfl
  · show s.monitorsCount + 1 = ((s.mons.next :: s.monitors).length : Nat)
    rw [inv.count, List.length_cons]
    rfl
  · intro m y live
    rcases Arena.alloc_cases live with ⟨rfl, rfl⟩ | ⟨other, live⟩
    · exact iff_of_true rfl List.mem_cons_self
    · refine (inv.flag m y live).trans ?_
      show m ∈ s.monitors ↔ m ∈ s.mons.next :: s.monitors
      rw [List.mem_cons, or_iff_right other]
  · intro m y live unlisted notEnding i
    rcases Arena.alloc_cases live with ⟨rfl, rfl⟩ | ⟨-, live⟩
    · simp [noModules]
    · exact inv.emptied m y live (fun mem => unlisted (List.mem_cons_of_mem _ mem)) notEnding i
  · intro m y live
    rcases Arena.alloc_cases live with ⟨rfl, rfl⟩ | ⟨-, live⟩
    · exact List.length_replicate
    · exact inv.shape m y live

/-- A descriptor comes to point to a monitor, which counts it. -/
theorem point (inv : Inv {} s) (held : s.descs.get d = some x) (points : x.monitor = none)
    (live : s.mons.get m = some y) :
    Inv {} { s with
      descs := s.descs.modify d fun x => { x with monitor := some m }
      mons := s.mons.modify m fun y => { y with refcount := y.refcount + 1 } } := by
  have idle := inv.idle_of_unpointed held points
  exact (inv.holdMonitor live).setPointer rfl held points List.not_mem_nil idle

end Inv

/-! ### ATTACH -/

/-- The monitors after the descriptor that pointed to `monitor` is freed. -/
def left (monitor : Option Nat) (mons : Arena SharedMonitor) : Arena SharedMonitor :=
  match monitor with
  | none => mons
  | some k =>
    match mons.get k with
    | none => mons
    | some y => Inv.dropped k y mons

/-- What a close of a descriptor that owns no monitor does. -/
theorem coManagerClose_member {n : Nat} (held : s.descs.get d = some x)
    (member : x.monitorOwner = false) (noIrp : x.refCount - 1 = 0 → x.irp = false)
    (pointed : ∀ k, x.monitor = some k → ∃ y, s.mons.get k = some y ∧ 0 < y.refcount) :
    coManagerClose (n + 1) d s =
      if x.refCount - 1 = 0 then
        { s with
          descs := s.descs.free d
          mons := left x.monitor s.mons
          numOpens := s.numOpens - 1 }
      else s.unref d := by
  split
  · rename_i last
    have held1 := Arena.get_modify_of
      (h := fun x : Descriptor => { x with refCount := x.refCount - 1 }) held
    have held2 := Arena.get_modify_of (h := fun x : Descriptor => { x with monitor := none }) held1
    rw [coManagerClose_last held last]
    cases monitor : x.monitor with
    | none =>
      rw [coManagerClose_none (s := s.unref d) held1 (noIrp last) monitor,
        freeDesc_of_held (s := s.unref d) held1]
      simp only [unref, Arena.free_modify, left]
    | some k =>
      obtain ⟨y, live, pos⟩ := pointed k monitor
      have refdown := coMonitorRefdown_member (Opens.coManagerClose n)
        (s := (s.unref d).unpoint d) live pos
      rw [coManagerClose_some (s := s.unref d) held1 (noIrp last) monitor]
      refine (congrArg (freeDesc d) ((congrArg (coMonitorRefdown _ k · _) member).trans refdown)
        ).trans ((freeDesc_of_held held2).trans ?_)
      simp only [unpoint, unref, Arena.free_modify, left, live]
  · rename_i more
    exact coManagerClose_more held more

/-- It does not matter what is in the slot of a monitor that stays. -/
theorem left_setSlot {mons : Arena SharedMonitor} {monitor : Option Nat}
    (live : mons.get m = some y) (stays : monitor = some m → y.refcount - 1 ≠ 0)
    (slot : Option Nat) :
    left monitor (mons.modify m (SharedMonitor.setSlot i slot)) =
        (left monitor mons).modify m (SharedMonitor.setSlot i slot) ∧
      ∃ y', (left monitor mons).get m = some y' := by
  cases monitor with
  | none => exact ⟨rfl, y, live⟩
  | some k =>
    by_cases same : k = m
    · subst same
      have set := Arena.get_modify_of (h := SharedMonitor.setSlot i slot) live
      have more := stays rfl
      have more' : (SharedMonitor.setSlot i slot y).refcount - 1 ≠ 0 := more
      simp only [left, set, live, Inv.dropped, if_neg more, if_neg more', Arena.modify_modify]
      exact ⟨rfl, _, Arena.get_modify_of live⟩
    · have other : m ≠ k := fun eq => same eq.symm
      simp only [left, Arena.get_modify_ne same]
      cases at' : mons.get k with
      | none => exact ⟨rfl, y, live⟩
      | some z =>
        dsimp only
        unfold Inv.dropped
        split
        · exact ⟨Arena.free_modify_ne other, y, (Arena.get_free_ne other).trans live⟩
        · exact ⟨Arena.modify_comm other _ _, y, (Arena.get_modify_ne other).trans live⟩

/-- A close of a member and the change of a slot of a monitor that stays can change places. -/
theorem coManagerClose_setSlot {n : Nat} (held : s.descs.get d = some x)
    (member : x.monitorOwner = false) (noIrp : x.refCount - 1 = 0 → x.irp = false)
    (pointed : ∀ k, x.monitor = some k → ∃ y, s.mons.get k = some y ∧ 0 < y.refcount)
    (live : s.mons.get m = some y)
    (stays : x.refCount - 1 = 0 → x.monitor = some m → y.refcount - 1 ≠ 0) (slot : Option Nat) :
    coManagerClose (n + 1) d (s.setSlot m i slot) =
      (coManagerClose (n + 1) d s).setSlot m i slot := by
  have pointed' : ∀ k, x.monitor = some k → ∃ y, (s.mons.modify m (SharedMonitor.setSlot i slot)
      ).get k = some y ∧ 0 < y.refcount := by
    intro k points
    obtain ⟨z, at', pos⟩ := pointed k points
    by_cases same : k = m
    · subst same
      exact ⟨_, Arena.get_modify_of at', pos⟩
    · exact ⟨z, (Arena.get_modify_ne same).trans at', pos⟩
  rw [Opens.setSlot, setMon_of_live live, coManagerClose_member
    (s := { s with mons := s.mons.modify m (SharedMonitor.setSlot i slot) }) held member noIrp
    pointed', coManagerClose_member held member noIrp pointed]
  split
  · rename_i last
    obtain ⟨comm, y', live'⟩ := left_setSlot (i := i) live (stays last) slot
    rw [setMon_of_live (s := { s with
      descs := s.descs.free d
      mons := left x.monitor s.mons
      numOpens := s.numOpens - 1 }) live', comm]
  · rw [setMon_of_live (s := s.unref d) live]
    rfl

/-- An empty slot comes to hold a descriptor. -/
theorem Inv.fillSlot (inv : Inv {} s) (held : s.descs.get d = some x)
    (member : x.monitorOwner = false) (live : s.mons.get m = some y) (listed : m ∈ s.monitors)
    (lt : i < coMonitorModulesCount) (empty : y.slot i = none) :
    Inv {} ((s.setSlot m i (some d)).setDesc d fun x => { x with refCount := x.refCount + 1 }) := by
  have counted := inv.refCount d x held
  have pos := inv.referenced d x held nofun
  have more := inv.touchOpen (f := fun x => { x with refCount := x.refCount + 1 }) [d] held
    nofun rfl rfl rfl (fun i other => List.count_cons_of_ne other.symm)
    (by
      simp only [List.count_nil, List.count_cons_self] at counted ⊢
      omega)
    (.inl ⟨rfl, by dsimp only; omega⟩)
  have filled := more.setSlot live lt (some d) []
    (fun i => by
      rw [empty]
      by_cases same : d = i <;> simp [same])
    (by
      rintro _ ⟨⟩
      refine ⟨.inl listed, fun x' held' => ?_⟩
      have same := (Arena.get_modify_of held).symm.trans held'
      cases same
      exact member)
  rw [Opens.setSlot, setMon_of_live live,
    setDesc_of_held (s := { s with mons := s.mons.modify m (SharedMonitor.setSlot i (some d)) }) held]
  exact filled

/-- `d` points to the listed monitor `m` through ATTACH. -/
structure Attached (d m : Nat) (s : Opens) : Prop where
  inv : Inv {} s
  held : ∃ x, s.descs.get d = some x ∧ x.handle = true ∧ x.monitor = some m ∧
    x.monitorOwner = false
  listed : m ∈ s.monitors

/-- Two descriptors that point to one monitor. -/
theorem two_le_pointers {d' : Nat} {x' : Descriptor} (held : s.descs.get d = some x)
    (points : x.monitor = some m) (held' : s.descs.get d' = some x') (points' : x'.monitor = some m)
    (other : d' ≠ d) : 2 ≤ pointers s.descs m := by
  have eq := Arena.total_free (f := fun x : Descriptor => if x.monitor = some m then 1 else 0) held
  have le := Arena.le_total (f := fun x : Descriptor => if x.monitor = some m then 1 else 0)
    ((Arena.get_free_ne other).trans held')
  rw [if_pos points] at eq
  rw [if_pos points'] at le
  unfold pointers
  omega

theorem setSlot_setSlot (live : s.mons.get m = some y) (slot slot' : Option Nat) :
    (s.setSlot m i slot).setSlot m i slot' = s.setSlot m i slot' := by
  have first : s.setSlot m i slot =
      { s with mons := s.mons.modify m (SharedMonitor.setSlot i slot) } := setMon_of_live live
  have second : s.setSlot m i slot' =
      { s with mons := s.mons.modify m (SharedMonitor.setSlot i slot') } := setMon_of_live live
  rw [first, second, Opens.setSlot, setMon_of_live (Arena.get_modify_of live)]
  simp only [Arena.modify_modify, SharedMonitor.setSlot, List.set_set]
  rfl

/-- The close of the descriptor `old` that a slot of `m` holds, and then the slot is emptied. -/
theorem Attached.closeOld {old : Nat} (a : Attached d m s) (live : s.mons.get m = some y)
    (lt : i < coMonitorModulesCount) (slot : y.slot i = some old) :
    Attached d m ((s.close old).setSlot m i none) ∧
      ∃ y', (s.close old).mons.get m = some y' := by
  obtain ⟨x, held, handle, points, member⟩ := a.held
  obtain ⟨x', held', isOpen', member'⟩ := a.inv.member_of_slot live slot
  have counted := a.inv.refCount old x' held'
  have slotted := pos_of_slot live (mem_of_slot slot)
  have noIrp : x'.refCount - 1 = 0 → x'.irp = false := by
    intro last
    cases irp : x'.irp with
    | false => rfl
    | true =>
      simp only [irp, Bool.toNat_true] at counted
      omega
  have notSelf : x'.refCount - 1 = 0 → old ≠ d := by
    rintro last rfl
    have same := held.symm.trans held'
    cases same
    simp only [handle, Bool.toNat_true] at counted
    omega
  have pointed : ∀ k, x'.monitor = some k → ∃ y, s.mons.get k = some y ∧ 0 < y.refcount := by
    intro k points'
    obtain ⟨z, live'⟩ := a.inv.mon_of_pointer held' points'
    exact ⟨z, live', a.inv.pointed k z live'⟩
  have stays : x'.refCount - 1 = 0 → x'.monitor = some m → y.refcount - 1 ≠ 0 := by
    intro last points'
    have two := two_le_pointers held points held' points' (notSelf last)
    have refcount := a.inv.refcount m y live
    omega
  have deep : s.close old = coManagerClose (s.descs.next + 1) old s := rfl
  -- the slot is emptied first
  have emptied := a.inv.setSlot live lt none [old]
    (fun j => by
      rw [slot, List.count_cons]
      by_cases same : old = j <;> simp [same])
    nofun
  obtain ⟨closed, -⟩ := emptied.closeMember (n := s.descs.next) rfl
    (fun x1 held1 => by
      have same := held'.symm.trans held1
      cases same
      exact member')
    nofun
  have comm := coManagerClose_setSlot (n := s.descs.next) (i := i) held' member' noIrp pointed live
    stays none
  rw [Opens.setSlot, setMon_of_live live, ← deep] at comm
  rw [comm] at closed
  have after := coManagerClose_member (n := s.descs.next) held' member' noIrp pointed
  rw [← deep] at after
  have heldAfter : ∃ x, (s.close old).descs.get d = some x ∧ x.handle = true ∧
      x.monitor = some m ∧ x.monitorOwner = false := by
    rw [after]
    split
    · rename_i last
      exact ⟨x, (Arena.get_free_ne (notSelf last).symm).trans held, handle, points, member⟩
    · by_cases same : d = old
      · subst same
        exact ⟨_, Arena.get_modify_of held, handle, points, member⟩
      · exact ⟨x, (Arena.get_modify_ne same).trans held, handle, points, member⟩
  have liveAfter : ∃ y', (s.close old).mons.get m = some y' := by
    rw [after]
    split
    · rename_i last
      exact (left_setSlot (i := i) live (stays last) none).2
    · exact ⟨y, live⟩
  have listed : (s.close old).monitors = s.monitors := by
    rw [after]
    split <;> rfl
  obtain ⟨y', live'⟩ := liveAfter
  refine ⟨⟨closed, ?_, ?_⟩, y', live'⟩
  · rw [Opens.setSlot, setMon_of_live live']
    exact heldAfter
  · rw [Opens.setSlot, setMon_of_live live']
    exact listed ▸ a.listed

theorem Attached.fillSlot (a : Attached d m s) (live : s.mons.get m = some y)
    (lt : i < coMonitorModulesCount) (empty : y.slot i = none) :
    Attached d m
      ((s.setSlot m i (some d)).setDesc d fun x => { x with refCount := x.refCount + 1 }) := by
  obtain ⟨x, held, handle, points, member⟩ := a.held
  refine ⟨a.inv.fillSlot held member live a.listed lt empty, ?_, ?_⟩
  all_goals
    rw [Opens.setSlot, setMon_of_live live, setDesc_of_held
      (s := { s with mons := s.mons.modify m (SharedMonitor.setSlot i (some d)) }) held]
  · exact ⟨_, Arena.get_modify_of held, handle, points, member⟩
  · exact a.listed

theorem Attached.attachModule (a : Attached d m s) (lt : i < coMonitorModulesCount) :
    Attached d m (attachModule d m s i) := by
  obtain ⟨x, held, handle, points, member⟩ := a.held
  obtain ⟨y, live⟩ := a.inv.mon_of_pointer held points
  rw [Opens.attachModule, withMon_of_live live, if_neg (Nat.not_le.mpr lt)]
  cases slot : y.slot i with
  | none => exact a.fillSlot live lt slot
  | some old =>
    obtain ⟨emptied, y', live'⟩ := a.closeOld live lt slot
    have emptyLive : ((s.close old).setSlot m i none).mons.get m =
        some (SharedMonitor.setSlot i none y') := by
      rw [Opens.setSlot, setMon_of_live live']
      exact Arena.get_modify_of live'
    have length := emptied.inv.shape m _ emptyLive
    have filled := emptied.fillSlot emptyLive lt (slot_setSlot_self
      (by rw [SharedMonitor.setSlot, List.length_set] at length; omega) none)
    rwa [setSlot_setSlot live'] at filled

/-- ATTACH on a descriptor that points to no monitor. -/
theorem Inv.attach (inv : Inv {} s) (held : s.descs.get d = some x) (handle : x.handle = true)
    (points : x.monitor = none) (id : Nat) {modules : List Nat}
    (range : ∀ i ∈ modules, i < coMonitorModulesCount) : Inv {} (s.attach d id modules) := by
  unfold Opens.attach
  split
  · have same := Arena.modify_eq_self (h := fun x : Descriptor => { x with monitor := none }) held
      (points ▸ rfl)
    rw [setDesc_of_held held, same]
    exact inv
  · rename_i m found
    have listed := List.mem_of_find?_eq_some found
    obtain ⟨i, x', held', -, points'⟩ := (inv.listed m nofun).mp listed
    obtain ⟨y, live⟩ := inv.mon_of_pointer held' points'
    rw [setMon_of_live live,
      setDesc_of_held (s := { s with mons := s.mons.modify m fun y =>
        { y with refcount := y.refcount + 1 } }) held]
    have member : x.monitorOwner = false := by
      apply Bool.eq_false_iff.mpr
      intro flagged
      have pointer := (inv.owner d x held flagged nofun).2
      rw [points] at pointer
      exact absurd pointer nofun
    have start : Attached d m _ := ⟨inv.point held points live,
      ⟨_, Arena.get_modify_of held, handle, rfl, member⟩, listed⟩
    have attached : ∀ s', Attached d m s' → Attached d m (modules.foldl (Opens.attachModule d m) s') := by
      induction modules with
      | nil => exact fun _ a => a
      | cons i modules ih =>
        intro s' a
        exact ih (fun j mem => range j (List.mem_cons_of_mem _ mem)) _
          (a.attachModule (range i List.mem_cons_self))
    exact (attached _ start).inv

/-! ### CLOSE and RESET -/

/-- CO_MONITOR_IOCTL_CLOSE from a descriptor that owns no monitor. -/
theorem Inv.closeAsMember (inv : Inv {} s) (held : s.descs.get d = some x)
    (points : x.monitor = some m) (member : x.monitorOwner = false) (idle : s.Idle d) :
    Inv {} (s.monitorClose d) := by
  obtain ⟨y, live⟩ := inv.mon_of_pointer held points
  have cleared := inv.clearPointer (f := fun x => { x with monitor := none, monitorOwner := false })
    held points rfl ⟨rfl, rfl, rfl⟩ nofun idle
    (fun flagged => absurd (member.symm.trans flagged) nofun)
  have dropped := cleared.dropMonitor rfl live nofun
  rw [monitorClose, withDesc_of_held held, points]
  dsimp only
  rw [member, coMonitorRefdown_member _ live (inv.pointed m y live),
    setDesc_of_held (s := { s with mons := Inv.dropped m y s.mons }) held]
  exact dropped

/-- CO_MONITOR_IOCTL_CLOSE from the owner of the monitor. -/
theorem Inv.closeAsOwner (inv : Inv {} s) (held : s.descs.get d = some x)
    (points : x.monitor = some m) (flagged : x.monitorOwner = true) (idle : s.Idle d) :
    Inv {} (s.monitorClose d) := by
  have owns : Owns s.descs d m := ⟨x, held, flagged, points⟩
  obtain ⟨y, live, listed⟩ := inv.listed_of_owner rfl owns
  rw [monitorClose, withDesc_of_held held, points]
  dsimp only
  rw [flagged, coMonitorRefdown_owner live listed (inv.pointed m y live)]
  have emptying : Emptying { ending := some m } d x m 0 (s.unlisted m) :=
    ⟨inv.unlist rfl owns, held, fun _ _ j hj => absurd hj (Nat.not_lt_zero j),
      fun i owns' => inv.oneOwner i d m owns' owns⟩
  have emptied := Emptying.all (n := s.descs.next) (.inr points) rfl flagged emptying
  have deep : s.depth = s.descs.next + 1 := rfl
  have apart := Apart.sendMonitorEndMessages (Apart.coManagerClose (s.descs.next + 1)) m
    (s.unlisted m)
  rw [deep]
  generalize sendMonitorEndMessages (Opens.coManagerClose (s.descs.next + 1)) m _ = s1
    at emptied apart ⊢
  have idle : s1.Idle d := fun c hc => idle c (apart.messages ▸ hc)
  obtain ⟨y1, live1⟩ := emptied.live (.inr points)
  have cleared := emptied.inv.clearPointer
    (f := fun x => { x with monitor := none, monitorOwner := false }) emptied.held points rfl
    ⟨rfl, rfl, rfl⟩ nofun idle (fun _ => rfl)
  have notOwned : ∀ i, ¬ Owns (s1.descs.modify d fun x =>
      { x with monitor := none, monitorOwner := false }) i m := by
    rintro i ⟨x', held', flagged', points'⟩
    rcases Arena.modify_cases held' with ⟨-, x'', -, rfl⟩ | ⟨other, held'⟩
    · exact absurd points' nofun
    · exact other (emptied.owns i ⟨x', held', flagged', points'⟩)
  have dropped := (cleared.ended rfl (fun _ live' => emptied.unconnected live') notOwned
    ).dropMonitor rfl live1 nofun
  rw [dropMonitor_of_live live1,
    setDesc_of_held (s := { s1 with mons := Inv.dropped m y1 s1.mons }) emptied.held]
  exact dropped

theorem Inv.monitorClose (inv : Inv {} s) (held : s.descs.get d = some x) (idle : s.Idle d) :
    Inv {} (s.monitorClose d) := by
  cases points : x.monitor with
  | none =>
    rw [Opens.monitorClose, withDesc_of_held held, points]
    exact inv
  | some m =>
    cases flagged : x.monitorOwner with
    | false => exact inv.closeAsMember held points flagged idle
    | true => exact inv.closeAsOwner held points flagged idle

/-- The owner's monitor is on the list, so RESET does not put it there again. -/
theorem Inv.reset_eq (inv : Inv {} s) (held : s.descs.get d = some x) (granted : Bool) :
    s.reset d granted = s := by
  rw [Opens.reset, withDesc_of_held held]
  cases points : x.monitor with
  | none => rfl
  | some m =>
    dsimp only
    split
    · rename_i owner
      obtain ⟨y, live, listed⟩ := inv.listed_of_owner rfl ⟨x, held, owner.1, points⟩
      rw [withMon_of_live live, if_pos listed]
    · rfl

/-! ### Reads and messages -/

theorem Inv.read (inv : Inv {} s) (held : s.descs.get d = some x) (queued : Bool) :
    Inv {} (s.read d queued) := by
  rw [Opens.read, withDesc_of_held held]
  split
  · rename_i waits
    have counted := inv.refCount d x held
    have pos := inv.referenced d x held nofun
    rw [setDesc_of_held held]
    refine inv.touchOpen _ held nofun rfl rfl rfl (fun _ _ => rfl) ?_ (.inl ⟨rfl, ?_⟩)
    · simp only [waits.2.2, Bool.toNat_false, Bool.toNat_true] at counted ⊢
      omega
    · dsimp only
      omega
  · exact inv

/-- A read that is completed leaves its reference to the code that completes it. -/
theorem Inv.takeIrp {refs : List Nat} (inv : Inv { refs := refs } s) (held : s.descs.get d = some x)
    (irp : x.irp = true) :
    Inv { refs := d :: refs }
      { s with descs := s.descs.modify d fun x => { x with irp := false } } := by
  have counted := inv.refCount d x held
  have pos := inv.referenced d x held nofun
  refine inv.touchOpen _ held nofun rfl rfl rfl
    (fun i other => List.count_cons_of_ne other.symm) ?_ (.inl ⟨rfl, pos⟩)
  simp only [irp, Bool.toNat_true, Bool.toNat_false, List.count_cons_self] at counted ⊢
  omega

theorem Inv.cancel (inv : Inv {} s) (held : s.descs.get d = some x) : Inv {} (s.cancel d) := by
  rw [Opens.cancel, withDesc_of_held held]
  split
  · rename_i irp
    rw [setDesc_of_held held]
    exact (inv.takeIrp held irp).close
  · exact inv

/-- A message that holds no reference to a descriptor comes or goes. -/
theorem Inv.note (inv : Inv fr s) {messages : List Incoming}
    (same : ∀ d, (receivers messages).count d = s.incoming.count d)
    (callers : ∀ c ∈ messages, Calls s.descs c) : Inv fr { s with messages := messages } :=
  { inv with
    refCount := by
      intro d x held
      dsimp only [incoming]
      rw [same]
      exact inv.refCount d x held
    noRefs := by
      intro d gone
      dsimp only [incoming]
      rw [same]
      exact inv.noRefs d gone
    callers := callers }

theorem Inv.incomingMessage (inv : Inv {} s) (held : s.descs.get d = some x)
    (handle : x.handle = true) (module : Nat) : Inv {} (s.incomingMessage d module) := by
  rw [Opens.incomingMessage, withDesc_of_held held]
  cases points : x.monitor with
  | none => exact inv
  | some m =>
    obtain ⟨y, live⟩ := inv.mon_of_pointer held points
    have calls : Calls s.descs ⟨d, m, none⟩ := ⟨x, held, handle, points⟩
    dsimp only
    rw [withMon_of_live live]
    split
    · exact inv
    cases slot : y.slot module with
    | none => exact inv.note (fun _ => rfl) (List.forall_mem_cons.mpr ⟨calls, inv.callers⟩)
    | some opened =>
      obtain ⟨x', held', isOpen, -⟩ := inv.member_of_slot live slot
      have counted := inv.refCount opened x' held'
      have pos := inv.referenced opened x' held' isOpen
      dsimp only
      rw [withDesc_of_held held', if_neg (Int.ne_of_gt pos), setDesc_of_held held']
      refine inv.touch (⟨d, m, some opened⟩ :: s.messages) _ held' isOpen rfl rfl
        (fun i other => ⟨List.count_cons_of_ne other.symm, rfl⟩) ?_
        (List.forall_mem_cons.mpr ⟨?_, fun c hc => ?_⟩) (.inl ⟨rfl, ?_⟩)
      · have one : (receivers (⟨d, m, some opened⟩ :: s.messages)).count opened =
            s.incoming.count opened + 1 := List.count_cons_self
        rw [one]
        dsimp only at counted ⊢
        omega
      · exact calls.modify held' rfl rfl
      · exact (inv.callers c hc).modify held' rfl rfl
      · dsimp only
        omega

/-- A message that goes on has the reference that it took. -/
theorem Inv.takeReceiver {c : Incoming} (inv : Inv {} s) (mem : c ∈ s.messages)
    (opened : c.opened = some d) :
    ∃ x, s.descs.get d = some x ∧
      Inv { refs := [d] } { s with messages := c.done :: s.messages.erase c } := by
  have counts : ∀ i, (receivers (c.done :: s.messages.erase c)).count i +
      (if d = i then 1 else 0) = s.incoming.count i := by
    intro i
    have perm := (List.perm_cons_erase mem).filterMap Incoming.opened
    have before : s.incoming.count i = (receivers (c :: s.messages.erase c)).count i :=
      perm.count_eq i
    rw [before, receivers, receivers, List.filterMap_cons, List.filterMap_cons, opened]
    by_cases same : d = i <;> simp [Incoming.done, same]
  have taken : 0 < s.incoming.count d := by
    have one := counts d
    rw [if_pos rfl] at one
    omega
  obtain ⟨x, held, isOpen⟩ := inv.held_of_ref (.inr (.inl taken))
  have counted := inv.refCount d x held
  have pos := inv.referenced d x held isOpen
  have same := Arena.modify_eq_self (h := id) held rfl
  refine ⟨x, held, ?_⟩
  have touched := inv.touch (f := id) (c.done :: s.messages.erase c) [d] held isOpen rfl rfl
    (fun i other => by
      have one := counts i
      rw [if_neg other.symm] at one
      exact ⟨one, List.count_cons_of_ne other.symm⟩)
    (by
      have one := counts d
      rw [if_pos rfl] at one
      simp only [id, List.count_cons_self, List.count_nil] at counted ⊢
      omega)
    (by
      rw [same]
      exact List.forall_mem_cons.mpr
        ⟨inv.callers c mem, fun c' hc' => inv.callers c' (List.mem_of_mem_erase hc')⟩)
    (.inl ⟨rfl, pos⟩)
  rwa [same] at touched

/-- The monitor of a message is there. -/
theorem Inv.mon_of_message {c : Incoming} (inv : Inv fr s) (mem : c ∈ s.messages) :
    ∃ y, s.mons.get c.monitor = some y := by
  obtain ⟨x, held, -, points⟩ := inv.callers c mem
  exact inv.mon_of_pointer held points

theorem Inv.endMessage {c : Incoming} (inv : Inv {} s) (mem : c.done ∈ s.messages) :
    Inv {} (s.endMessage c) := by
  obtain ⟨y, live⟩ := inv.mon_of_message mem
  have live : s.mons.get c.monitor = some y := live
  rw [Opens.endMessage, withMon_of_live live]
  refine inv.note (fun d => ?_) fun c' hc' => inv.callers c' (List.mem_of_mem_erase hc')
  have perm := (List.perm_cons_erase mem).filterMap Incoming.opened
  rw [incoming, receivers, receivers, perm.count_eq]
  rfl

/-- The receiver gets the message, and the reference to it is dropped. -/
theorem Inv.deliver {c : Incoming} (inv : Inv {} s) (mem : c ∈ s.messages)
    (opened : c.opened = some d) (filtered : Bool) :
    Inv {} (s.deliver c d filtered) ∧ c.done ∈ (s.deliver c d filtered).messages := by
  obtain ⟨y, live⟩ := inv.mon_of_message mem
  obtain ⟨x, held, taken⟩ := inv.takeReceiver mem opened
  rw [Opens.deliver, withMon_of_live live, withDesc_of_held held]
  dsimp only
  have sent : ∀ s', Inv { refs := [d] } s' → c.done ∈ s'.messages →
      Inv {} (s'.withMon c.monitor fun _ => s'.close d) ∧
        c.done ∈ (s'.withMon c.monitor fun _ => s'.close d).messages := by
    intro s' inv' mem'
    obtain ⟨y', live'⟩ := inv'.mon_of_message mem'
    have live' : s'.mons.get c.monitor = some y' := live'
    rw [withMon_of_live live']
    exact ⟨inv'.close, (Apart.close d s').messages ▸ mem'⟩
  split
  · rename_i waits
    rw [setDesc_of_held (s := { s with messages := c.done :: s.messages.erase c }) held]
    refine sent _ (taken.takeIrp held waits.2).close ?_
    rw [(Apart.close ..).messages]
    exact List.mem_cons_self
  · exact sent _ taken List.mem_cons_self

theorem Inv.sendIncoming {c : Incoming} (inv : Inv {} s) (mem : c ∈ s.messages)
    (filtered : Bool) : Inv {} (s.sendIncoming c filtered) := by
  unfold Opens.sendIncoming
  cases opened : c.opened with
  | none =>
    have done : c.done = c := by rw [Incoming.done, ← opened]
    exact inv.endMessage (done.symm ▸ mem)
  | some d =>
    obtain ⟨inv', mem'⟩ := inv.deliver mem opened filtered
    exact inv'.endMessage mem'

/-! ### The end of a file object -/

/-- The file object of `d` is gone, and the code that closes it has its reference. -/
structure Leaving (d m : Nat) (s : Opens) : Prop where
  inv : Inv { refs := [d] } s
  held : ∃ x, s.descs.get d = some x ∧ x.monitor = some m

theorem Leaving.leaveSlot (l : Leaving d m s) (lt : i < coMonitorModulesCount) :
    Leaving d m (s.leaveSlot d m i) := by
  obtain ⟨x, held, points⟩ := l.held
  obtain ⟨y, live⟩ := l.inv.mon_of_pointer held points
  rw [Opens.leaveSlot, withMon_of_live live]
  split
  swap
  · exact l
  rename_i slot
  have emptied := l.inv.setSlot live lt none [d, d]
    (fun j => by
      rw [slot, List.count_cons]
      by_cases same : d = j <;> simp [same])
    (fun _ slotted => absurd slotted.symm (Option.some_ne_none _))
  have counted := l.inv.refCount d x held
  have slotted := pos_of_slot live (mem_of_slot slot)
  have more : x.refCount - 1 ≠ 0 := by
    simp only [List.count_cons_self] at counted
    omega
  rw [Opens.setSlot, setMon_of_live live]
  refine ⟨emptied.closeMore rfl held List.not_mem_nil more, ?_⟩
  rw [Opens.close, Opens.depth, coManagerClose_more
    (s := { s with mons := s.mons.modify m (SharedMonitor.setSlot i none) }) held more]
  exact ⟨_, Arena.get_modify_of held, points⟩

theorem Inv.deactiveAndClose (inv : Inv {} s) (held : s.descs.get d = some x)
    (handle : x.handle = true) (idle : s.Idle d) : Inv {} (s.deactiveAndClose d) := by
  have counted := inv.refCount d x held
  have pos := inv.referenced d x held nofun
  have left := inv.touch (f := fun x => { x with handle := false, active := false }) s.messages [d]
    held nofun rfl rfl
    (fun i other => ⟨rfl, List.count_cons_of_ne other.symm⟩)
    (by
      simp only [handle, Bool.toNat_true, Bool.toNat_false, List.count_cons_self,
        List.count_nil, incoming] at counted ⊢
      omega)
    (fun c hc => (inv.callers c hc).modify_ne (idle c hc))
    (.inl ⟨rfl, pos⟩)
  rw [Opens.deactiveAndClose, withDesc_of_held held, setDesc_of_held held]
  cases points : x.monitor with
  | none => exact left.close
  | some m =>
    have leaving : Leaving d m { s with descs := s.descs.modify d fun x =>
        { x with handle := false, active := false } } :=
      ⟨left, _, Arena.get_modify_of held, points⟩
    have all : ∀ k ≤ coMonitorModulesCount, ∀ s, Leaving d m s →
        Leaving d m ((List.range k).foldl (Opens.leaveSlot d m) s) := by
      intro k
      induction k with
      | zero => exact fun _ _ l => l
      | succ k ih =>
        intro le s l
        rw [List.range_succ, List.foldl_append]
        exact (ih (Nat.le_of_succ_le le) s l).leaveSlot le
    exact (all _ (Nat.le_refl _) _ leaving).inv.close

end CoLinux.Opens
