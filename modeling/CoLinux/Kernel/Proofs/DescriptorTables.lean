import CoLinux.Kernel.Descriptors

/-!
# References are counted

While code holds references of its own, `Frame` says which: `Inv` counts them beside the ones that
are stored. Each change of the tables is a lemma on `Inv`, and the requests are sequences of them.
-/

namespace CoLinux.Opens

open Lib

/-- The slots that hold the descriptor `d`. -/
def slots (mons : Arena SharedMonitor) (d : Nat) : Nat :=
  mons.total fun y => y.connectedModules.count (some d)

/-- The descriptors that point to the monitor `m`. -/
def pointers (descs : Arena Descriptor) (m : Nat) : Nat :=
  descs.total fun x => if x.monitor = some m then 1 else 0

/-- `d` created the monitor `m` that it points to. -/
def Owns (descs : Arena Descriptor) (d m : Nat) : Prop :=
  ∃ x, descs.get d = some x ∧ x.monitorOwner = true ∧ x.monitor = some m

/-- The caller of a message has its file object, and points to the monitor of the message. -/
def Calls (descs : Arena Descriptor) (c : Incoming) : Prop :=
  ∃ x, descs.get c.caller = some x ∧ x.handle = true ∧ x.monitor = some c.monitor

/-- What running code holds. -/
structure Frame where
  /-- References to descriptors. -/
  refs : List Nat := []
  /-- References to monitors. -/
  mons : List Nat := []
  /-- Descriptors in `co_manager_close_`. -/
  closing : List Nat := []
  /-- The monitor whose slots `send_monitor_end_messages` empties. -/
  ending : Option Nat := none

/-- The invariant, while code holds `fr`. -/
structure Inv (fr : Frame) (s : Opens) : Prop where
  refCount : ∀ d x, s.descs.get d = some x → x.refCount =
    (x.handle.toNat + x.irp.toNat + slots s.mons d + s.incoming.count d + fr.refs.count d : Nat)
  noRefs : ∀ d, s.descs.get d = none →
    slots s.mons d = 0 ∧ s.incoming.count d = 0 ∧ fr.refs.count d = 0
  referenced : ∀ d x, s.descs.get d = some x → d ∉ fr.closing → 0 < x.refCount
  closing : ∀ d ∈ fr.closing, ∃ x, s.descs.get d = some x ∧ x.refCount = 0
  onceClosing : fr.closing.Nodup
  refcount : ∀ m y, s.mons.get m = some y → y.refcount = (pointers s.descs m + fr.mons.count m : Nat)
  noPointers : ∀ m, s.mons.get m = none → pointers s.descs m = 0 ∧ fr.mons.count m = 0
  pointed : ∀ m y, s.mons.get m = some y → 0 < y.refcount
  owner : ∀ d x, s.descs.get d = some x → x.monitorOwner = true → d ∉ fr.closing →
    slots s.mons d = 0 ∧ x.monitor.isSome
  oneOwner : ∀ d d' m, Owns s.descs d m → Owns s.descs d' m → d = d'
  listed : ∀ m, fr.ending ≠ some m → (m ∈ s.monitors ↔ ∃ d, Owns s.descs d m)
  ending : ∀ m, fr.ending = some m → m ∉ s.monitors
  onceListed : s.monitors.Nodup
  count : s.monitorsCount = s.monitors.length
  flag : ∀ m y, s.mons.get m = some y → (y.listedInManager = true ↔ m ∈ s.monitors)
  emptied : ∀ m y, s.mons.get m = some y → m ∉ s.monitors → fr.ending ≠ some m →
    ∀ d, some d ∉ y.connectedModules
  shape : ∀ m y, s.mons.get m = some y → y.connectedModules.length = coMonitorModulesCount
  callers : ∀ c ∈ s.messages, Calls s.descs c
  opens : s.numOpens = s.descs.total fun _ => 1
  faults : s.faults = 0

variable {fr : Frame} {s : Opens} {d m i : Nat} {x : Descriptor} {y : SharedMonitor}
  {f : Descriptor → Descriptor}

/-! ## What counts -/

theorem owns_modify (held : s.descs.get d = some x) (monitor : (f x).monitor = x.monitor)
    (owner : (f x).monitorOwner = x.monitorOwner) {i : Nat} :
    Owns (s.descs.modify d f) i m ↔ Owns s.descs i m := by
  by_cases same : i = d
  · subst same
    simp [Owns, held, monitor, owner]
  · simp only [Owns, Arena.get_modify_ne same]

theorem pointers_modify (held : s.descs.get d = some x) (monitor : (f x).monitor = x.monitor) :
    pointers (s.descs.modify d f) m = pointers s.descs m := by
  apply Arena.total_modify_same
  intro x' held'
  rw [held] at held'
  cases held'
  rw [monitor]

theorem pointers_point (held : s.descs.get d = some x) (points : x.monitor = none)
    (monitor : (f x).monitor = some m) (k : Nat) :
    pointers (s.descs.modify d f) k = pointers s.descs k + (if m = k then 1 else 0) := by
  have eq := Arena.total_modify (h := f)
    (f := fun x : Descriptor => if x.monitor = some k then 1 else 0) held
  simp only [points, monitor, Option.some.injEq, reduceCtorEq, if_false] at eq
  exact eq

theorem Calls.modify {descs : Arena Descriptor} {c : Incoming} (calls : Calls descs c)
    (held : descs.get d = some x) (handle : (f x).handle = x.handle)
    (monitor : (f x).monitor = x.monitor) : Calls (descs.modify d f) c := by
  obtain ⟨x', held', handle', points⟩ := calls
  by_cases same : c.caller = d
  · rw [same, held] at held'
    cases held'
    rw [Calls, same]
    exact ⟨f x, Arena.get_modify_of held, handle.trans handle', monitor.trans points⟩
  · exact ⟨x', (Arena.get_modify_ne same).trans held', handle', points⟩

theorem Calls.modify_ne {descs : Arena Descriptor} {c : Incoming} (calls : Calls descs c)
    (other : c.caller ≠ d) : Calls (descs.modify d f) c :=
  calls.imp fun _ h => ⟨(Arena.get_modify_ne other).trans h.1, h.2⟩

theorem Calls.free_ne {descs : Arena Descriptor} {c : Incoming} (calls : Calls descs c)
    (other : c.caller ≠ d) : Calls (descs.free d) c :=
  calls.imp fun _ h => ⟨(Arena.get_free_ne other).trans h.1, h.2⟩

theorem pos_of_pointer (held : s.descs.get d = some x) (monitor : x.monitor = some m) :
    0 < pointers s.descs m := by
  have le := Arena.le_total (f := fun x : Descriptor => if x.monitor = some m then 1 else 0) held
  rw [if_pos monitor] at le
  exact le

theorem pos_of_slot (held : s.mons.get m = some y) (slot : some d ∈ y.connectedModules) :
    0 < slots s.mons d := by
  have le := Arena.le_total (f := fun y : SharedMonitor => y.connectedModules.count (some d)) held
  have pos := List.count_pos_iff.mpr slot
  exact Nat.lt_of_lt_of_le pos le

/-- A list with another entry at one place. -/
theorem count_set_exchange {α : Type} [DecidableEq α] {l : List (Option α)} (lt : i < l.length)
    (v a : Option α) : (l.set i v).count a + (if l.getD i none = a then 1 else 0) =
      l.count a + (if v = a then 1 else 0) := by
  induction l generalizing i with
  | nil => exact absurd lt (Nat.not_lt_zero i)
  | cons b l ih =>
    cases i with
    | zero =>
      simp [List.count_cons]
      omega
    | succ i =>
      have rest := ih (Nat.lt_of_succ_lt_succ lt)
      simp only [List.set_cons_succ, List.count_cons, List.getD_cons_succ] at rest ⊢
      omega

theorem slots_setSlot {mons : Arena SharedMonitor} (lt : i < y.connectedModules.length)
    (live : mons.get m = some y) (slot : Option Nat) (d : Nat) :
    slots (mons.modify m (SharedMonitor.setSlot i slot)) d +
        (if y.slot i = some d then 1 else 0) =
      slots mons d + (if slot = some d then 1 else 0) := by
  have eq := Arena.total_modify (h := SharedMonitor.setSlot i slot)
    (f := fun y => y.connectedModules.count (some d)) live
  have counts : (SharedMonitor.setSlot i slot y).connectedModules.count (some d) + _ = _ :=
    count_set_exchange lt slot (some d)
  unfold slots SharedMonitor.slot
  omega

namespace Inv

theorem closing_unreferenced (inv : Inv fr s) (mem : d ∈ fr.closing) :
    slots s.mons d = 0 ∧ s.incoming.count d = 0 ∧ fr.refs.count d = 0 := by
  obtain ⟨x, held, zero⟩ := inv.closing d mem
  have counted := inv.refCount d x held
  rw [zero] at counted
  refine ⟨?_, ?_, ?_⟩ <;> omega

/-- A descriptor that something refers to is held. -/
theorem held_of_ref (inv : Inv fr s)
    (ref : 0 < slots s.mons d ∨ 0 < s.incoming.count d ∨ 0 < fr.refs.count d) :
    ∃ x, s.descs.get d = some x ∧ d ∉ fr.closing := by
  cases held : s.descs.get d with
  | none =>
    have none := inv.noRefs d held
    omega
  | some x =>
    refine ⟨x, rfl, fun mem => ?_⟩
    have none := inv.closing_unreferenced mem
    omega

theorem mon_of_pointer (inv : Inv fr s) (held : s.descs.get d = some x)
    (monitor : x.monitor = some m) : ∃ y, s.mons.get m = some y := by
  cases live : s.mons.get m with
  | none =>
    have none := (inv.noPointers m live).1
    have pos := pos_of_pointer held monitor
    omega
  | some y => exact ⟨y, rfl⟩

/-- A descriptor in `co_manager_close_` has no file object, and so no ioctl. -/
theorem idle_of_closing (inv : Inv fr s) (mem : d ∈ fr.closing) : s.Idle d := by
  intro c hc same
  obtain ⟨x, held, handle, -⟩ := inv.callers c hc
  obtain ⟨x', held', zero⟩ := inv.closing d mem
  rw [same, held'] at held
  cases held
  have counted := inv.refCount d x held'
  rw [zero, handle] at counted
  simp only [Bool.toNat_true] at counted
  omega

theorem opens_modify (inv : Inv fr s) : s.numOpens = (s.descs.modify d f).total fun _ => 1 := by
  have same : (s.descs.modify d f).total (fun _ => 1) = s.descs.total fun _ => 1 :=
    Arena.total_modify_same fun _ _ => rfl
  rw [same]
  exact inv.opens

/-- A change of a descriptor that keeps its monitor. -/
theorem touch (inv : Inv fr s) (messages : List Incoming) (refs : List Nat)
    (held : s.descs.get d = some x) (open' : d ∉ fr.closing)
    (monitor : (f x).monitor = x.monitor) (owner : (f x).monitorOwner = x.monitorOwner)
    (others : ∀ i, i ≠ d →
      (receivers messages).count i = s.incoming.count i ∧ refs.count i = fr.refs.count i)
    (counted : (f x).refCount = ((f x).handle.toNat + (f x).irp.toNat + slots s.mons d +
      (receivers messages).count d + refs.count d : Nat))
    (callers : ∀ c ∈ messages, Calls (s.descs.modify d f) c)
    {closing : List Nat}
    (more : closing = fr.closing ∧ 0 < (f x).refCount ∨
      closing = d :: fr.closing ∧ (f x).refCount = 0) :
    Inv { fr with refs := refs, closing := closing }
      { s with descs := s.descs.modify d f, messages := messages } := by
  have pointersEq : ∀ m, pointers (s.descs.modify d f) m = pointers s.descs m :=
    fun m => pointers_modify held monitor
  have ownsEq : ∀ i m, Owns (s.descs.modify d f) i m ↔ Owns s.descs i m :=
    fun i m => owns_modify held monitor owner
  have old : ∀ i, i ∉ closing → i ∉ fr.closing := by
    intro i notIn mem
    rcases more with ⟨rfl, -⟩ | ⟨rfl, -⟩
    · exact notIn mem
    · exact notIn (List.mem_cons_of_mem d mem)
  refine
    { refCount := ?_
      noRefs := ?_
      referenced := ?_
      closing := ?_
      onceClosing := ?_
      refcount := ?_
      noPointers := ?_
      pointed := inv.pointed
      owner := ?_
      oneOwner := ?_
      listed := ?_
      ending := inv.ending
      onceListed := inv.onceListed
      count := inv.count
      flag := inv.flag
      emptied := inv.emptied
      shape := inv.shape
      callers := callers
      opens := inv.opens_modify
      faults := inv.faults }
  · intro i x' held'
    rcases Arena.modify_cases held' with ⟨rfl, x'', held'', rfl⟩ | ⟨other, held'⟩
    · rw [held] at held''
      cases held''
      exact counted
    · have eq := inv.refCount i x' held'
      obtain ⟨one, two⟩ := others i other
      dsimp only [incoming]
      rw [one, two]
      exact eq
  · intro i gone
    replace gone : s.descs.get i = none := Arena.modify_eq_none.mp gone
    have other : i ≠ d := by
      rintro rfl
      rw [held] at gone
      exact absurd gone nofun
    obtain ⟨one, two⟩ := others i other
    dsimp only [incoming]
    rw [one, two]
    exact inv.noRefs i gone
  · intro i x' held' notIn
    rcases Arena.modify_cases held' with ⟨rfl, x'', held'', rfl⟩ | ⟨other, held'⟩
    · rw [held] at held''
      cases held''
      rcases more with ⟨-, pos⟩ | ⟨rfl, -⟩
      · exact pos
      · exact absurd List.mem_cons_self notIn
    · exact inv.referenced i x' held' (old i notIn)
  · intro i mem
    by_cases same : i = d
    · subst same
      rcases more with ⟨rfl, -⟩ | ⟨-, zero⟩
      · exact absurd mem open'
      · exact ⟨f x, by simp [held], zero⟩
    · have mem : i ∈ fr.closing := by
        rcases more with ⟨rfl, -⟩ | ⟨rfl, -⟩
        · exact mem
        · exact List.mem_of_ne_of_mem same mem
      obtain ⟨x', held', zero⟩ := inv.closing i mem
      exact ⟨x', (Arena.get_modify_ne same).trans held', zero⟩
  · rcases more with ⟨rfl, -⟩ | ⟨rfl, -⟩
    · exact inv.onceClosing
    · exact List.nodup_cons.mpr ⟨open', inv.onceClosing⟩
  · intro m y live
    dsimp only
    rw [pointersEq]
    exact inv.refcount m y live
  · intro m none
    dsimp only
    rw [pointersEq]
    exact inv.noPointers m none
  · intro i x' held' flagged notIn
    rcases Arena.modify_cases held' with ⟨rfl, x'', held'', rfl⟩ | ⟨other, held'⟩
    · rw [held] at held''
      cases held''
      rw [owner] at flagged
      rw [monitor]
      exact inv.owner i x held flagged open'
    · exact inv.owner i x' held' flagged (old i notIn)
  · intro i j m one two
    exact inv.oneOwner i j m ((ownsEq i m).mp one) ((ownsEq j m).mp two)
  · intro m other
    exact (inv.listed m other).trans (exists_congr fun i => (ownsEq i m).symm)

/-- A change of a descriptor that keeps its file object as well. -/
theorem touchOpen (inv : Inv fr s) (refs : List Nat) (held : s.descs.get d = some x)
    (open' : d ∉ fr.closing) (handle : (f x).handle = x.handle)
    (monitor : (f x).monitor = x.monitor) (owner : (f x).monitorOwner = x.monitorOwner)
    (others : ∀ i, i ≠ d → refs.count i = fr.refs.count i)
    (counted : (f x).refCount = (x.handle.toNat + (f x).irp.toNat + slots s.mons d +
      s.incoming.count d + refs.count d : Nat))
    {closing : List Nat}
    (more : closing = fr.closing ∧ 0 < (f x).refCount ∨
      closing = d :: fr.closing ∧ (f x).refCount = 0) :
    Inv { fr with refs := refs, closing := closing }
      { s with descs := s.descs.modify d f } :=
  inv.touch s.messages refs held open' monitor owner (fun i other => ⟨rfl, others i other⟩)
    (handle ▸ counted) (fun c hc => (inv.callers c hc).modify held handle monitor) more

/-- A slot that is changed takes over a reference that code holds, and leaves it the one that it
had. -/
theorem setSlot (inv : Inv fr s) (live : s.mons.get m = some y) (lt : i < coMonitorModulesCount)
    (slot : Option Nat) (refs : List Nat)
    (moved : ∀ d, refs.count d + (if slot = some d then 1 else 0) =
      fr.refs.count d + (if y.slot i = some d then 1 else 0))
    (filled : ∀ d, slot = some d → (m ∈ s.monitors ∨ fr.ending = some m) ∧
      ∀ x, s.descs.get d = some x → x.monitorOwner = false) :
    Inv { fr with refs := refs }
      { s with mons := s.mons.modify m (SharedMonitor.setSlot i slot) } := by
  have slotsEq := fun d => slots_setSlot (inv.shape m y live ▸ lt) live slot d
  refine
    { refCount := ?_
      noRefs := ?_
      referenced := inv.referenced
      closing := inv.closing
      onceClosing := inv.onceClosing
      refcount := ?_
      noPointers := ?_
      pointed := ?_
      owner := ?_
      oneOwner := inv.oneOwner
      listed := inv.listed
      ending := inv.ending
      onceListed := inv.onceListed
      count := inv.count
      flag := ?_
      emptied := ?_
      shape := ?_
      callers := inv.callers
      opens := inv.opens
      faults := inv.faults }
  · intro d x held
    have counted := inv.refCount d x held
    have eq := slotsEq d
    have one := moved d
    dsimp only [incoming] at counted ⊢
    omega
  · intro d gone
    have none := inv.noRefs d gone
    have eq := slotsEq d
    have one := moved d
    dsimp only [incoming] at none ⊢
    omega
  · intro k y' live'
    rcases Arena.modify_cases live' with ⟨rfl, y'', live'', rfl⟩ | ⟨-, live'⟩
    · exact inv.refcount _ y'' live''
    · exact inv.refcount k y' live'
  · intro k gone
    exact inv.noPointers k (Arena.modify_eq_none.mp gone)
  · intro k y' live'
    rcases Arena.modify_cases live' with ⟨rfl, y'', live'', rfl⟩ | ⟨-, live'⟩
    · exact inv.pointed _ y'' live''
    · exact inv.pointed k y' live'
  · intro d x held flagged notIn
    obtain ⟨none, points⟩ := inv.owner d x held flagged notIn
    refine ⟨?_, points⟩
    have other : slot ≠ some d := fun same => by
      rw [(filled d same).2 x held] at flagged
      exact absurd flagged nofun
    have eq := slotsEq d
    rw [if_neg other] at eq
    dsimp only
    omega
  · intro k y' live'
    rcases Arena.modify_cases live' with ⟨rfl, y'', live'', rfl⟩ | ⟨-, live'⟩
    · exact inv.flag _ y'' live''
    · exact inv.flag k y' live'
  · intro k y' live' unlisted other d mem
    rcases Arena.modify_cases live' with ⟨rfl, y'', live'', rfl⟩ | ⟨-, live'⟩
    · rcases List.mem_or_eq_of_mem_set mem with mem | same
      · exact inv.emptied _ y'' live'' unlisted other d mem
      · exact (filled d same.symm).1.elim unlisted other
    · exact inv.emptied k y' live' unlisted other d mem
  · intro k y' live'
    rcases Arena.modify_cases live' with ⟨rfl, y'', live'', rfl⟩ | ⟨-, live'⟩
    · exact List.length_set.trans (inv.shape _ y'' live'')
    · exact inv.shape k y' live'

/-- A descriptor no longer points to its monitor. -/
theorem clearPointer (inv : Inv fr s) (held : s.descs.get d = some x) (points : x.monitor = some m)
    (monitor : (f x).monitor = none) (same : (f x).refCount = x.refCount ∧
      (f x).handle = x.handle ∧ (f x).irp = x.irp)
    (owner : (f x).monitorOwner = true → d ∈ fr.closing) (idle : s.Idle d)
    (ended : x.monitorOwner = true → fr.ending = some m) :
    Inv { fr with mons := m :: fr.mons } { s with descs := s.descs.modify d f } := by
  obtain ⟨refCount, handle, irp⟩ := same
  have pointersEq : ∀ k, pointers (s.descs.modify d f) k + (m :: fr.mons).count k =
      pointers s.descs k + fr.mons.count k := by
    intro k
    have eq := Arena.total_modify (h := f)
      (f := fun x : Descriptor => if x.monitor = some k then 1 else 0) held
    simp only [points, monitor, Option.some.injEq, reduceCtorEq, if_false] at eq
    unfold pointers
    rw [List.count_cons]
    by_cases this : m = k <;> simp [this] at eq ⊢ <;> omega
  have ownsEq : ∀ i k, Owns (s.descs.modify d f) i k ↔ Owns s.descs i k ∧ i ≠ d := by
    intro i k
    by_cases this : i = d
    · subst this
      simp [Owns, held, monitor]
    · simp only [Owns, Arena.get_modify_ne this, ne_eq, this, not_false_eq_true, and_true]
  refine
    { refCount := ?_
      noRefs := ?_
      referenced := ?_
      closing := ?_
      onceClosing := inv.onceClosing
      refcount := ?_
      noPointers := ?_
      pointed := inv.pointed
      owner := ?_
      oneOwner := ?_
      listed := ?_
      ending := inv.ending
      onceListed := inv.onceListed
      count := inv.count
      flag := inv.flag
      emptied := inv.emptied
      shape := inv.shape
      callers := fun c hc => (inv.callers c hc).modify_ne (idle c hc)
      opens := inv.opens_modify
      faults := inv.faults }
  · intro i x' held'
    rcases Arena.modify_cases held' with ⟨rfl, x'', held'', rfl⟩ | ⟨-, held'⟩
    · rw [held] at held''
      cases held''
      rw [refCount, handle, irp]
      exact inv.refCount _ x held
    · exact inv.refCount i x' held'
  · intro i gone
    exact inv.noRefs i (Arena.modify_eq_none.mp gone)
  · intro i x' held' notIn
    rcases Arena.modify_cases held' with ⟨rfl, x'', held'', rfl⟩ | ⟨-, held'⟩
    · rw [held] at held''
      cases held''
      rw [refCount]
      exact inv.referenced _ x held notIn
    · exact inv.referenced i x' held' notIn
  · intro i mem
    obtain ⟨x', held', zero⟩ := inv.closing i mem
    by_cases this : i = d
    · subst this
      rw [held] at held'
      cases held'
      exact ⟨f x, by simp [held], refCount.trans zero⟩
    · exact ⟨x', (Arena.get_modify_ne this).trans held', zero⟩
  · intro k y live
    have counted := inv.refcount k y live
    have eq := pointersEq k
    dsimp only
    omega
  · intro k gone
    have none := inv.noPointers k gone
    have eq := pointersEq k
    dsimp only
    omega
  · intro i x' held' flagged notIn
    rcases Arena.modify_cases held' with ⟨rfl, x'', held'', rfl⟩ | ⟨-, held'⟩
    · rw [held] at held''
      cases held''
      exact absurd (owner flagged) notIn
    · exact inv.owner i x' held' flagged notIn
  · intro i j k one two
    exact inv.oneOwner i j k ((ownsEq i k).mp one).1 ((ownsEq j k).mp two).1
  · intro k other
    refine (inv.listed k other).trans (exists_congr fun i => ?_)
    rw [ownsEq]
    refine (and_iff_left_of_imp ?_).symm
    rintro ⟨x', held', flagged, points'⟩ rfl
    rw [held] at held'
    cases held'
    rw [points] at points'
    cases points'
    exact other (ended flagged)

/-- A descriptor that nothing refers to is freed. -/
theorem freeClosing (inv : Inv fr s) {closing : List Nat} (last : fr.closing = d :: closing)
    (held : s.descs.get d = some x) (monitor : x.monitor = none) :
    Inv { fr with closing := closing }
      { s with descs := s.descs.free d, numOpens := s.numOpens - 1 } := by
  have mem : d ∈ fr.closing := last ▸ List.mem_cons_self
  have once : d ∉ closing ∧ closing.Nodup := List.nodup_cons.mp (last ▸ inv.onceClosing)
  have unreferenced := inv.closing_unreferenced mem
  have pointersEq : ∀ k, pointers (s.descs.free d) k = pointers s.descs k := by
    intro k
    have eq := Arena.total_free
      (f := fun x : Descriptor => if x.monitor = some k then 1 else 0) held
    rwa [monitor, if_neg nofun] at eq
  have ownsEq : ∀ i k, Owns (s.descs.free d) i k ↔ Owns s.descs i k := by
    intro i k
    by_cases this : i = d
    · subst this
      simp [Owns, held, monitor]
    · simp only [Owns, Arena.get_free_ne this]
  have old : ∀ i, i ≠ d → i ∉ closing → i ∉ fr.closing := by
    intro i other notIn mem
    rw [last] at mem
    exact notIn (List.mem_of_ne_of_mem other mem)
  refine
    { refCount := ?_
      noRefs := ?_
      referenced := ?_
      closing := ?_
      onceClosing := once.2
      refcount := ?_
      noPointers := ?_
      pointed := inv.pointed
      owner := ?_
      oneOwner := ?_
      listed := ?_
      ending := inv.ending
      onceListed := inv.onceListed
      count := inv.count
      flag := inv.flag
      emptied := inv.emptied
      shape := inv.shape
      callers := fun c hc => (inv.callers c hc).free_ne (inv.idle_of_closing mem c hc)
      opens := ?_
      faults := inv.faults }
  · intro i x' held'
    exact inv.refCount i x' (Arena.free_cases held').2
  · intro i gone
    by_cases this : i = d
    · exact this ▸ unreferenced
    · exact inv.noRefs i ((Arena.get_free_ne this).symm.trans gone)
  · intro i x' held' notIn
    obtain ⟨other, held'⟩ := Arena.free_cases held'
    exact inv.referenced i x' held' (old i other notIn)
  · intro i mem
    obtain ⟨x', held', zero⟩ := inv.closing i (last ▸ List.mem_cons_of_mem d mem)
    have other : i ≠ d := fun same => once.1 (same ▸ mem)
    exact ⟨x', (Arena.get_free_ne other).trans held', zero⟩
  · intro k y live
    dsimp only
    rw [pointersEq]
    exact inv.refcount k y live
  · intro k gone
    dsimp only
    rw [pointersEq]
    exact inv.noPointers k gone
  · intro i x' held' flagged notIn
    obtain ⟨other, held'⟩ := Arena.free_cases held'
    exact inv.owner i x' held' flagged (old i other notIn)
  · intro i j k one two
    exact inv.oneOwner i j k ((ownsEq i k).mp one) ((ownsEq j k).mp two)
  · intro k other
    exact (inv.listed k other).trans (exists_congr fun i => (ownsEq i k).symm)
  · have eq := Arena.total_free (f := fun _ => 1) held
    have opens := inv.opens
    dsimp only
    omega

/-- A change of the monitors that keeps their slots, and of the references to them that code
holds. -/
theorem recount (inv : Inv fr s) {mons : Arena SharedMonitor} {refs : List Nat}
    (slotsEq : ∀ d, slots mons d = slots s.mons d)
    (kept : ∀ k y, mons.get k = some y → ∃ y', s.mons.get k = some y' ∧
      y.connectedModules = y'.connectedModules ∧ y.listedInManager = y'.listedInManager)
    (counted : ∀ k y, mons.get k = some y →
      0 < y.refcount ∧ y.refcount = (pointers s.descs k + refs.count k : Nat))
    (gone : ∀ k, mons.get k = none → pointers s.descs k = 0 ∧ refs.count k = 0) :
    Inv { fr with mons := refs } { s with mons := mons } :=
  { inv with
    refCount := by
      intro d x held
      dsimp only
      rw [slotsEq]
      exact inv.refCount d x held
    noRefs := by
      intro d gone
      dsimp only
      rw [slotsEq]
      exact inv.noRefs d gone
    refcount := fun k y live => (counted k y live).2
    noPointers := gone
    pointed := fun k y live => (counted k y live).1
    owner := by
      intro d x held flagged notIn
      dsimp only
      rw [slotsEq]
      exact inv.owner d x held flagged notIn
    flag := by
      intro k y live
      obtain ⟨y', live', -, listed⟩ := kept k y live
      rw [listed]
      exact inv.flag k y' live'
    emptied := by
      intro k y live
      obtain ⟨y', live', modules, -⟩ := kept k y live
      rw [modules]
      exact inv.emptied k y' live'
    shape := by
      intro k y live
      obtain ⟨y', live', modules, -⟩ := kept k y live
      rw [modules]
      exact inv.shape k y' live' }

/-- Another reference count of one monitor. -/
theorem recountOne (inv : Inv fr s) (live : s.mons.get m = some y) (n : Int → Int)
    {refs : List Nat} (others : ∀ k, k ≠ m → refs.count k = fr.mons.count k)
    (pos : 0 < n y.refcount)
    (counted : n y.refcount = (pointers s.descs m + refs.count m : Nat)) :
    Inv { fr with mons := refs }
      { s with mons := s.mons.modify m fun y => { y with refcount := n y.refcount } } := by
  apply inv.recount
  · exact fun d => Arena.total_modify_same fun _ _ => rfl
  · intro k y' live'
    rcases Arena.modify_cases live' with ⟨rfl, y'', live'', rfl⟩ | ⟨-, live'⟩
    · exact ⟨y'', live'', rfl, rfl⟩
    · exact ⟨y', live', rfl, rfl⟩
  · intro k y' live'
    rcases Arena.modify_cases live' with ⟨rfl, y'', live'', rfl⟩ | ⟨other, live'⟩
    · rw [live] at live''
      cases live''
      exact ⟨pos, counted⟩
    · rw [others k other]
      exact ⟨inv.pointed k y' live', inv.refcount k y' live'⟩
  · intro k gone
    have gone' : s.mons.get k = none := Arena.modify_eq_none.mp gone
    have other : k ≠ m := by
      rintro rfl
      exact absurd (live.symm.trans gone') (Option.some_ne_none _)
    rw [others k other]
    exact inv.noPointers k gone'

/-- Code takes a reference to a monitor. -/
theorem holdMonitor (inv : Inv fr s) (live : s.mons.get m = some y) :
    Inv { fr with mons := m :: fr.mons }
      { s with mons := s.mons.modify m fun y => { y with refcount := y.refcount + 1 } } := by
  have pos := inv.pointed m y live
  have counted := inv.refcount m y live
  refine inv.recountOne live (· + 1) (fun k other => List.count_cons_of_ne other.symm) ?_ ?_
  · omega
  · rw [List.count_cons_self]
    omega

/-- The monitors after a reference to `m` is dropped. -/
def dropped (m : Nat) (y : SharedMonitor) (mons : Arena SharedMonitor) : Arena SharedMonitor :=
  if y.refcount - 1 = 0 then mons.free m
  else mons.modify m fun y => { y with refcount := y.refcount - 1 }

theorem dropMonitor (inv : Inv fr s) {mons : List Nat} (ref : fr.mons = m :: mons)
    (live : s.mons.get m = some y)
    (kept : fr.ending = some m → 0 < pointers s.descs m + mons.count m) :
    Inv { fr with mons := mons } { s with mons := dropped m y s.mons } := by
  have counted := inv.refcount m y live
  rw [ref, List.count_cons_self] at counted
  have others : ∀ k, k ≠ m → mons.count k = fr.mons.count k := by
    intro k other
    rw [ref, List.count_cons_of_ne other.symm]
  unfold dropped
  by_cases last : y.refcount - 1 = 0
  · rw [if_pos last]
    have zero : pointers s.descs m = 0 ∧ mons.count m = 0 := by omega
    have notEnding : fr.ending ≠ some m := fun ending => by
      have pos := kept ending
      omega
    have unlisted : m ∉ s.monitors := by
      intro mem
      obtain ⟨i, x, held, -, points⟩ := (inv.listed m notEnding).mp mem
      have pos := pos_of_pointer held points
      omega
    have empty : ∀ d, y.connectedModules.count (some d) = 0 := fun d =>
      List.count_eq_zero.mpr (inv.emptied m y live unlisted notEnding d)
    apply inv.recount
    · intro d
      have eq := Arena.total_free
        (f := fun y : SharedMonitor => y.connectedModules.count (some d)) live
      rwa [empty d] at eq
    · exact fun k y' live' => ⟨y', (Arena.free_cases live').2, rfl, rfl⟩
    · intro k y' live'
      obtain ⟨other, live'⟩ := Arena.free_cases live'
      rw [others k other]
      exact ⟨inv.pointed k y' live', inv.refcount k y' live'⟩
    · intro k gone
      by_cases this : k = m
      · exact this ▸ zero
      · rw [others k this]
        exact inv.noPointers k ((Arena.get_free_ne this).symm.trans gone)
  · rw [if_neg last]
    have pos := inv.pointed m y live
    refine inv.recountOne live (· - 1) others ?_ ?_ <;> omega

/-- A descriptor comes to point to a monitor, with the reference that code holds. -/
theorem setPointer (inv : Inv fr s) {mons : List Nat} (ref : fr.mons = m :: mons)
    (held : s.descs.get d = some x) (points : x.monitor = none) (open' : d ∉ fr.closing)
    (idle : s.Idle d) :
    Inv { fr with mons := mons }
      { s with descs := s.descs.modify d fun x => { x with monitor := some m } } := by
  have member : x.monitorOwner = false := by
    apply Bool.eq_false_iff.mpr
    intro flagged
    have pointer := (inv.owner d x held flagged open').2
    rw [points] at pointer
    exact absurd pointer Bool.false_ne_true
  have pointersEq : ∀ k, pointers (s.descs.modify d fun x => { x with monitor := some m }) k +
      mons.count k = pointers s.descs k + fr.mons.count k := by
    intro k
    rw [pointers_point held points rfl k, ref, List.count_cons]
    by_cases this : m = k <;> simp [this] <;> omega
  have ownsEq : ∀ i k, Owns (s.descs.modify d fun x => { x with monitor := some m }) i k ↔
      Owns s.descs i k := by
    intro i k
    by_cases same : i = d
    · subst same
      simp [Owns, held, member]
    · simp only [Owns, Arena.get_modify_ne same]
  refine
    { refCount := ?_
      noRefs := ?_
      referenced := ?_
      closing := ?_
      onceClosing := inv.onceClosing
      refcount := ?_
      noPointers := ?_
      pointed := inv.pointed
      owner := ?_
      oneOwner := ?_
      listed := ?_
      ending := inv.ending
      onceListed := inv.onceListed
      count := inv.count
      flag := inv.flag
      emptied := inv.emptied
      shape := inv.shape
      callers := fun c hc => (inv.callers c hc).modify_ne (idle c hc)
      opens := inv.opens_modify
      faults := inv.faults }
  · intro i x' held'
    rcases Arena.modify_cases held' with ⟨rfl, x'', held'', rfl⟩ | ⟨-, held'⟩
    · exact inv.refCount _ x'' held''
    · exact inv.refCount i x' held'
  · intro i gone
    exact inv.noRefs i (Arena.modify_eq_none.mp gone)
  · intro i x' held' notIn
    rcases Arena.modify_cases held' with ⟨rfl, x'', held'', rfl⟩ | ⟨-, held'⟩
    · exact inv.referenced _ x'' held'' notIn
    · exact inv.referenced i x' held' notIn
  · intro i mem
    obtain ⟨x', held', zero⟩ := inv.closing i mem
    have other : i ≠ d := fun same => open' (same ▸ mem)
    exact ⟨x', (Arena.get_modify_ne other).trans held', zero⟩
  · intro k y live
    have counted := inv.refcount k y live
    have eq := pointersEq k
    dsimp only
    omega
  · intro k gone
    have none := inv.noPointers k gone
    have eq := pointersEq k
    dsimp only
    omega
  · intro i x' held' flagged notIn
    rcases Arena.modify_cases held' with ⟨rfl, x'', held'', rfl⟩ | ⟨-, held'⟩
    · have same := held.symm.trans held''
      cases same
      exact absurd (member.symm.trans flagged) Bool.false_ne_true
    · exact inv.owner i x' held' flagged notIn
  · intro i j k one two
    exact inv.oneOwner i j k ((ownsEq i k).mp one) ((ownsEq j k).mp two)
  · intro k other
    exact (inv.listed k other).trans (exists_congr fun i => (ownsEq i k).symm)

/-- The owner of a monitor takes it off the list, and its slots are going to be emptied. -/
theorem unlist (inv : Inv fr s) (idle : fr.ending = none) (owns : Owns s.descs d m) :
    Inv { fr with ending := some m }
      { s with
        mons := s.mons.modify m fun y => { y with listedInManager := false }
        monitors := s.monitors.erase m
        monitorsCount := s.monitorsCount - 1 } := by
  have mem : m ∈ s.monitors := (inv.listed m (idle ▸ nofun)).mpr ⟨d, owns⟩
  have memErase : ∀ k, k ≠ m → (k ∈ s.monitors.erase m ↔ k ∈ s.monitors) :=
    fun k other => List.mem_erase_of_ne other
  have slotsEq : ∀ d, slots (s.mons.modify m fun y => { y with listedInManager := false }) d =
      slots s.mons d := fun d => Arena.total_modify_same fun _ _ => rfl
  have gone : m ∉ s.monitors.erase m := inv.onceListed.not_mem_erase
  refine
    { refCount := ?_
      noRefs := ?_
      referenced := inv.referenced
      closing := inv.closing
      onceClosing := inv.onceClosing
      refcount := ?_
      noPointers := ?_
      pointed := ?_
      owner := ?_
      oneOwner := inv.oneOwner
      listed := ?_
      ending := ?_
      onceListed := inv.onceListed.erase m
      count := ?_
      flag := ?_
      emptied := ?_
      shape := ?_
      callers := inv.callers
      opens := inv.opens
      faults := inv.faults }
  · intro d x held
    dsimp only
    rw [slotsEq]
    exact inv.refCount d x held
  · intro d gone
    dsimp only
    rw [slotsEq]
    exact inv.noRefs d gone
  · intro k y' live'
    rcases Arena.modify_cases live' with ⟨rfl, y'', live'', rfl⟩ | ⟨-, live'⟩
    · exact inv.refcount _ y'' live''
    · exact inv.refcount k y' live'
  · intro k gone
    exact inv.noPointers k (Arena.modify_eq_none.mp gone)
  · intro k y' live'
    rcases Arena.modify_cases live' with ⟨rfl, y'', live'', rfl⟩ | ⟨-, live'⟩
    · exact inv.pointed _ y'' live''
    · exact inv.pointed k y' live'
  · intro d x held flagged notIn
    dsimp only
    rw [slotsEq]
    exact inv.owner d x held flagged notIn
  · intro k other
    have other : k ≠ m := fun same => other (same ▸ rfl)
    exact (memErase k other).trans (inv.listed k (idle ▸ nofun))
  · rintro k ⟨⟩
    exact gone
  · have length := List.length_erase_of_mem mem
    have pos := List.length_pos_of_mem mem
    have count := inv.count
    dsimp only
    omega
  · intro k y' live'
    rcases Arena.modify_cases live' with ⟨rfl, y'', live'', rfl⟩ | ⟨other, live'⟩
    · exact iff_of_false nofun gone
    · exact (inv.flag k y' live').trans (memErase k other).symm
  · intro k y' live' unlisted notEnding
    have other : k ≠ m := fun same => notEnding (same ▸ rfl)
    rw [Arena.get_modify_ne other] at live'
    exact inv.emptied k y' live' (fun mem => unlisted ((memErase k other).mpr mem)) (idle ▸ nofun)
  · intro k y' live'
    rcases Arena.modify_cases live' with ⟨rfl, y'', live'', rfl⟩ | ⟨-, live'⟩
    · exact inv.shape _ y'' live''
    · exact inv.shape k y' live'

/-- The slots are empty, and no descriptor owns the monitor any more. -/
theorem ended (inv : Inv fr s) (ending : fr.ending = some m)
    (empty : ∀ y, s.mons.get m = some y → ∀ d, some d ∉ y.connectedModules)
    (notOwned : ∀ d, ¬ Owns s.descs d m) : Inv { fr with ending := none } s :=
  { inv with
    listed := by
      intro k _
      by_cases this : k = m
      · subst this
        exact iff_of_false (inv.ending k ending) fun ⟨d, owns⟩ => notOwned d owns
      · refine inv.listed k fun same => this ?_
        rw [ending] at same
        exact (Option.some.inj same).symm
    ending := nofun
    emptied := by
      intro k y live unlisted _
      by_cases this : k = m
      · subst this
        exact empty y live
      · refine inv.emptied k y live unlisted fun same => this ?_
        rw [ending] at same
        exact (Option.some.inj same).symm }

end Inv

end CoLinux.Opens
