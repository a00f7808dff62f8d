import CoLinux.Kernel.Proofs.DescriptorTables

/-!
# A close keeps the books

`Inv.close` is about the close of any descriptor. That of an owner brings about the end of the slots
of its monitor, and so closes of descriptors that own none (`Inv.closeMember`).
-/

namespace CoLinux.Opens

open Lib

variable {fr : Frame} {s : Opens} {d m i : Nat} {x : Descriptor} {y : SharedMonitor}
  {f : Descriptor → Descriptor}

/-! ## What a close has nothing to do with -/

/-- The messages under way, and the blocks that were given up. -/
structure Apart (s s' : Opens) : Prop where
  messages : s'.messages = s.messages
  lost : s'.lost = s.lost

theorem Apart.refl (s : Opens) : Apart s s := ⟨rfl, rfl⟩

theorem Apart.trans {s' s'' : Opens} (one : Apart s s') (two : Apart s' s'') : Apart s s'' :=
  ⟨two.messages.trans one.messages, two.lost.trans one.lost⟩

theorem Apart.foldl {α : Type} {step : Opens → α → Opens} (one : ∀ s a, Apart s (step s a))
    (l : List α) (s : Opens) : Apart s (l.foldl step s) := by
  induction l generalizing s with
  | nil => exact .refl s
  | cons a l ih => exact (one s a).trans (ih _)

theorem Apart.withDesc {next : Descriptor → Opens} (apart : ∀ x, Apart s (next x)) :
    Apart s (s.withDesc d next) := by
  unfold Opens.withDesc
  split
  · exact ⟨rfl, rfl⟩
  · exact apart _

theorem Apart.withMon {next : SharedMonitor → Opens} (apart : ∀ y, Apart s (next y)) :
    Apart s (s.withMon m next) := by
  unfold Opens.withMon
  split
  · exact ⟨rfl, rfl⟩
  · exact apart _

theorem Apart.setDesc (d : Nat) (f : Descriptor → Descriptor) (s : Opens) :
    Apart s (s.setDesc d f) := Apart.withDesc fun _ => ⟨rfl, rfl⟩

theorem Apart.setMon (m : Nat) (h : SharedMonitor → SharedMonitor) (s : Opens) :
    Apart s (s.setMon m h) := Apart.withMon fun _ => ⟨rfl, rfl⟩

theorem Apart.dropMonitor (m : Nat) (s : Opens) : Apart s (s.dropMonitor m) := by
  refine Apart.withMon fun y => ?_
  split
  · exact ⟨rfl, rfl⟩
  · exact Apart.setMon ..

theorem Apart.unlist (m : Nat) (s : Opens) : Apart s (s.unlist m) := by
  refine Apart.withMon fun y => ?_
  split
  · have one := Apart.setMon m (fun y => { y with listedInManager := false }) s
    exact ⟨one.messages, one.lost⟩
  · exact .refl s

section Close

variable {close : Nat → Opens → Opens} (apart : ∀ d s, Apart s (close d s))
include apart

theorem Apart.coManagerSendEof (d : Nat) (s : Opens) : Apart s (coManagerSendEof close d s) := by
  refine Apart.withDesc fun _ => (Apart.setDesc ..).trans (Apart.withDesc fun x => ?_)
  split
  · exact (Apart.setDesc ..).trans (apart ..)
  · exact .refl _

theorem Apart.sendMonitorEndMessages (m : Nat) (s : Opens) :
    Apart s (sendMonitorEndMessages close m s) := by
  refine Apart.foldl (fun s i => Apart.withMon fun y => ?_) _ s
  split
  · exact .refl s
  · exact (Apart.coManagerSendEof apart ..).trans ((Apart.setMon ..).trans (apart ..))

theorem Apart.coMonitorRefdown (m : Nat) (monitorOwner : Bool) (s : Opens) :
    Apart s (coMonitorRefdown close m monitorOwner s) := by
  refine Apart.withMon fun y => ?_
  split
  · split
    · exact (Apart.unlist ..).trans
        ((Apart.sendMonitorEndMessages apart ..).trans (Apart.dropMonitor ..))
    · exact Apart.dropMonitor ..
  · exact .refl s

theorem Apart.coManagerClose_ (d : Nat) (s : Opens) : Apart s (coManagerClose_ close d s) := by
  have free : ∀ s, Apart s (s.freeDesc d) := fun s => Apart.withDesc fun _ => ⟨rfl, rfl⟩
  refine Apart.withDesc fun x => ?_
  have cleared := Apart.setDesc d (fun x => { x with irp := false }) s
  cases monitor : x.monitor with
  | none => exact cleared.trans (free _)
  | some m =>
    exact cleared.trans ((Apart.setDesc ..).trans
      ((Apart.coMonitorRefdown apart ..).trans (free _)))

end Close

theorem Apart.coManagerClose (n d : Nat) (s : Opens) : Apart s (coManagerClose n d s) := by
  induction n generalizing d s with
  | zero => exact ⟨rfl, rfl⟩
  | succ n ih =>
    refine Apart.withDesc fun x => ?_
    split
    · exact (Apart.setDesc ..).trans (Apart.coManagerClose_ ih ..)
    · exact Apart.setDesc ..

theorem Apart.close (d : Nat) (s : Opens) : Apart s (s.close d) := Apart.coManagerClose ..

/-! ## Closing a descriptor that owns no monitor -/

theorem setDesc_of_held (held : s.descs.get d = some x) :
    s.setDesc d f = { s with descs := s.descs.modify d f } := by
  rw [setDesc, withDesc, held]

theorem setMon_of_live {h : SharedMonitor → SharedMonitor} (live : s.mons.get m = some y) :
    s.setMon m h = { s with mons := s.mons.modify m h } := by
  rw [setMon, withMon, live]

theorem withDesc_of_held {next : Descriptor → Opens} (held : s.descs.get d = some x) :
    s.withDesc d next = next x := by
  rw [withDesc, held]

theorem withMon_of_live {next : SharedMonitor → Opens} (live : s.mons.get m = some y) :
    s.withMon m next = next y := by
  rw [withMon, live]

theorem dropMonitor_of_live (live : s.mons.get m = some y) :
    s.dropMonitor m = { s with mons := Inv.dropped m y s.mons } := by
  rw [dropMonitor, withMon_of_live live]
  unfold Inv.dropped
  split
  · rfl
  · exact setMon_of_live live

theorem freeDesc_of_held (held : s.descs.get d = some x) :
    s.freeDesc d = { s with descs := s.descs.free d, numOpens := s.numOpens - 1 } :=
  withDesc_of_held held

theorem coMonitorRefdown_member (close : Nat → Opens → Opens) (live : s.mons.get m = some y)
    (pos : 0 < y.refcount) :
    coMonitorRefdown close m false s = { s with mons := Inv.dropped m y s.mons } := by
  rw [coMonitorRefdown, withMon_of_live live, if_pos pos]
  exact dropMonitor_of_live live

/-- `d` no longer points to its monitor. -/
def unpoint (d : Nat) (s : Opens) : Opens :=
  { s with descs := s.descs.modify d fun x => { x with monitor := none } }

/-- `d` has one reference less. -/
def unref (d : Nat) (s : Opens) : Opens :=
  { s with descs := s.descs.modify d fun x => { x with refCount := x.refCount - 1 } }

/-- A reference that is not the last one. -/
theorem coManagerClose_more {n : Nat} (held : s.descs.get d = some x) (more : x.refCount - 1 ≠ 0) :
    coManagerClose (n + 1) d s = s.unref d := by
  rw [coManagerClose, withDesc_of_held held]
  dsimp only
  rw [if_neg more]
  exact setDesc_of_held held

/-- The last reference. -/
theorem coManagerClose_last {n : Nat} (held : s.descs.get d = some x) (last : x.refCount - 1 = 0) :
    coManagerClose (n + 1) d s = coManagerClose_ (coManagerClose n) d (s.unref d) := by
  rw [coManagerClose, withDesc_of_held held]
  dsimp only
  rw [if_pos last, setDesc_of_held held, unref]

section Last

variable {close : Nat → Opens → Opens} (held : s.descs.get d = some x) (noIrp : x.irp = false)
include held noIrp

theorem coManagerClose_none (monitor : x.monitor = none) :
    coManagerClose_ close d s = s.freeDesc d := by
  have same := Arena.modify_eq_self (h := fun x : Descriptor => { x with irp := false }) held
    (noIrp ▸ rfl)
  rw [coManagerClose_, withDesc_of_held held]
  dsimp only
  rw [setDesc_of_held held, same, monitor]

theorem coManagerClose_some (monitor : x.monitor = some m) :
    coManagerClose_ close d s =
      (coMonitorRefdown close m x.monitorOwner (s.unpoint d)).freeDesc d := by
  have same := Arena.modify_eq_self (h := fun x : Descriptor => { x with irp := false }) held
    (noIrp ▸ rfl)
  rw [coManagerClose_, withDesc_of_held held]
  dsimp only
  rw [setDesc_of_held held, same, monitor]
  dsimp only
  rw [setDesc_of_held held, unpoint]

end Last

/-- What a close of `d` leaves alone. -/
structure Spares (d : Nat) (s s' : Opens) : Prop where
  descs : ∀ i, i ≠ d → s'.descs.get i = s.descs.get i
  self : ∀ x', s'.descs.get d = some x' →
    ∃ x, s.descs.get d = some x ∧ x'.monitor = x.monitor ∧ x'.monitorOwner = x.monitorOwner
  mons : ∀ m y', s'.mons.get m = some y' →
    ∃ y, s.mons.get m = some y ∧ y'.connectedModules = y.connectedModules

theorem Spares.trans {s' s'' : Opens} (one : Spares d s s') (two : Spares d s' s'') :
    Spares d s s'' := by
  refine ⟨fun i other => (two.descs i other).trans (one.descs i other), fun x'' held'' => ?_,
    fun m y'' live'' => ?_⟩
  · obtain ⟨x', held', monitor', owner'⟩ := two.self x'' held''
    obtain ⟨x, held, monitor, owner⟩ := one.self x' held'
    exact ⟨x, held, monitor'.trans monitor, owner'.trans owner⟩
  · obtain ⟨y', live', same'⟩ := two.mons m y'' live''
    obtain ⟨y, live, same⟩ := one.mons m y' live'
    exact ⟨y, live, same'.trans same⟩

theorem Spares.owns {s' : Opens} (spares : Spares d s s') (owns : Owns s'.descs i m) :
    Owns s.descs i m := by
  obtain ⟨x', held', flagged, points⟩ := owns
  by_cases same : i = d
  · subst same
    obtain ⟨x, held, monitor, owner⟩ := spares.self x' held'
    exact ⟨x, held, owner ▸ flagged, monitor ▸ points⟩
  · exact ⟨x', (spares.descs i same).symm.trans held', flagged, points⟩

theorem spares_modify (s : Opens) (f : Descriptor → Descriptor)
    (same : ∀ x, (f x).monitor = x.monitor ∧ (f x).monitorOwner = x.monitorOwner) :
    Spares d s { s with descs := s.descs.modify d f } := by
  refine ⟨fun i other => Arena.get_modify_ne other, fun x' held' => ?_,
    fun _ y' live' => ⟨y', live', rfl⟩⟩
  rcases Arena.modify_cases held' with ⟨-, x, held, rfl⟩ | ⟨other, -⟩
  · exact ⟨x, held, same x⟩
  · exact absurd rfl other

/-- The descriptor is freed, and its reference to the monitor dropped. -/
theorem spares_free {mons : Arena SharedMonitor} {numOpens : Int}
    (same : ∀ m y', mons.get m = some y' →
      ∃ y, s.mons.get m = some y ∧ y'.connectedModules = y.connectedModules) :
    Spares d s { s with descs := s.descs.free d, mons := mons, numOpens := numOpens } := by
  refine ⟨fun i other => Arena.get_free_ne other, fun x' held' => ?_, same⟩
  exact absurd rfl (Arena.free_cases held').1

theorem dropped_modules (live : s.mons.get m = some y) {k : Nat} {y' : SharedMonitor}
    (live' : (Inv.dropped m y s.mons).get k = some y') :
    ∃ y, s.mons.get k = some y ∧ y'.connectedModules = y.connectedModules := by
  unfold Inv.dropped at live'
  split at live'
  · exact ⟨y', (Arena.free_cases live').2, rfl⟩
  · rcases Arena.modify_cases live' with ⟨rfl, y'', live'', rfl⟩ | ⟨-, live'⟩
    · exact ⟨y'', live'', rfl⟩
    · exact ⟨y', live', rfl⟩

/-- While the slots of a monitor are emptied, something other than `d` keeps it. -/
def KeepsEnding (d : Nat) (fr : Frame) (s : Opens) : Prop :=
  ∀ m, fr.ending = some m →
    m ∈ fr.mons ∨ ∃ i x, i ≠ d ∧ s.descs.get i = some x ∧ x.monitor = some m

theorem KeepsEnding.spared {s' : Opens} (kept : KeepsEnding d fr s)
    (spares : Spares d s s') : KeepsEnding d fr s' := by
  intro m ending
  refine (kept m ending).imp_right ?_
  rintro ⟨i, x, other, held, points⟩
  exact ⟨i, x, other, (spares.descs i other).trans held, points⟩

namespace Inv

/-- What a reference to `d` that code holds adds. -/
theorem counts_of_ref {refs : List Nat} (ref : fr.refs = d :: refs) :
    fr.refs.count d = refs.count d + 1 ∧ ∀ i, i ≠ d → refs.count i = fr.refs.count i := by
  rw [ref, List.count_cons_self]
  exact ⟨rfl, fun i other => (List.count_cons_of_ne other.symm).symm⟩

/-- A reference that is not the last one. -/
theorem closeMore {n : Nat} (inv : Inv fr s) {refs : List Nat} (ref : fr.refs = d :: refs)
    (held : s.descs.get d = some x) (isOpen : d ∉ fr.closing) (more : x.refCount - 1 ≠ 0) :
    Inv { fr with refs := refs } (coManagerClose (n + 1) d s) := by
  obtain ⟨counts, others⟩ := counts_of_ref ref
  have counted := inv.refCount d x held
  have pos := inv.referenced d x held isOpen
  rw [coManagerClose_more held more]
  refine inv.touchOpen _ held isOpen rfl rfl rfl others ?_ (.inl ⟨rfl, ?_⟩)
  · dsimp only
    omega
  · dsimp only
    omega

/-- The last reference: no read is pending, and `d` is going to be freed. -/
theorem closing_of_last (inv : Inv fr s) {refs : List Nat} (ref : fr.refs = d :: refs)
    (held : s.descs.get d = some x) (isOpen : d ∉ fr.closing) (last : x.refCount - 1 = 0) :
    x.irp = false ∧ Inv { fr with refs := refs, closing := d :: fr.closing } (s.unref d) := by
  obtain ⟨counts, others⟩ := counts_of_ref ref
  have counted := inv.refCount d x held
  constructor
  · cases irp : x.irp with
    | false => rfl
    | true =>
      simp only [irp, Bool.toNat_true] at counted
      omega
  · refine inv.touchOpen _ held isOpen rfl rfl rfl others ?_ (.inr ⟨rfl, last⟩)
    dsimp only
    omega

/-- The rest of the close of a descriptor that owns no monitor. -/
theorem closingMember {closing : List Nat} (inv : Inv fr s) (close : Nat → Opens → Opens)
    (last : fr.closing = d :: closing) (held : s.descs.get d = some x) (noIrp : x.irp = false)
    (member : x.monitorOwner = false) (kept : KeepsEnding d fr s) :
    Inv { fr with closing := closing } (coManagerClose_ close d s) ∧
      Spares d s (coManagerClose_ close d s) := by
  cases monitor : x.monitor with
  | none =>
    rw [coManagerClose_none held noIrp monitor, freeDesc_of_held held]
    exact ⟨inv.freeClosing last held monitor, spares_free fun _ y' live' => ⟨y', live', rfl⟩⟩
  | some m =>
    obtain ⟨y, live⟩ := inv.mon_of_pointer held monitor
    have unpointed := Arena.get_modify_of (h := fun x : Descriptor => { x with monitor := none }) held
    have cleared := inv.clearPointer (f := fun x => { x with monitor := none }) held monitor rfl
      ⟨rfl, rfl, rfl⟩ (fun _ => last ▸ List.mem_cons_self)
      (inv.idle_of_closing (last ▸ List.mem_cons_self))
      (fun flagged => absurd (member.symm.trans flagged) nofun)
    have drop := cleared.dropMonitor rfl live ?_
    · have refdown := coMonitorRefdown_member close (s := s.unpoint d) live
        (inv.pointed m y live)
      rw [coManagerClose_some held noIrp monitor, member, refdown, freeDesc_of_held unpointed]
      refine ⟨drop.freeClosing last unpointed rfl, ?_⟩
      simp only [unpoint, Arena.free_modify]
      exact spares_free fun _ _ => dropped_modules live
    · intro ending
      rcases kept m ending with mem | ⟨i, x', other, held', points⟩
      · have pos := List.count_pos_iff.mpr mem
        exact Nat.lt_of_lt_of_le pos (Nat.le_add_left _ _)
      · have pos := pos_of_pointer (s := s.unpoint d) ((Arena.get_modify_ne other).trans held') points
        exact Nat.lt_of_lt_of_le pos (Nat.le_add_right _ _)

/-- A close of a descriptor that owns no monitor. -/
theorem closeMember {n : Nat} (inv : Inv fr s) {refs : List Nat} (ref : fr.refs = d :: refs)
    (member : ∀ x, s.descs.get d = some x → x.monitorOwner = false) (kept : KeepsEnding d fr s) :
    Inv { fr with refs := refs } (coManagerClose (n + 1) d s) ∧
      Spares d s (coManagerClose (n + 1) d s) := by
  have counts := (counts_of_ref ref).1
  obtain ⟨x, held, isOpen⟩ := inv.held_of_ref (d := d) (by omega)
  have spared : Spares d s (s.unref d) := spares_modify s _ fun _ => ⟨rfl, rfl⟩
  by_cases last : x.refCount - 1 = 0
  swap
  · refine ⟨inv.closeMore ref held isOpen last, ?_⟩
    rw [coManagerClose_more held last]
    exact spared
  obtain ⟨noIrp, closing⟩ := inv.closing_of_last ref held isOpen last
  rw [coManagerClose_last held last]
  obtain ⟨closed, more⟩ := closing.closingMember (coManagerClose n) rfl
    (Arena.get_modify_of held) noIrp (member x held) (kept.spared spared)
  exact ⟨closed, spared.trans more⟩

end Inv

/-! ## The end of a monitor's slots -/

/-- A member gets its end of file. -/
theorem Inv.sendEof {n : Nat} (inv : Inv fr s) (held : s.descs.get d = some x)
    (isOpen : d ∉ fr.closing) (member : x.monitorOwner = false) (kept : KeepsEnding d fr s) :
    Inv fr (coManagerSendEof (coManagerClose (n + 1)) d s) ∧
      Spares d s (coManagerSendEof (coManagerClose (n + 1)) d s) := by
  have counted := inv.refCount d x held
  have pos := inv.referenced d x held isOpen
  have inactive := inv.touchOpen (f := fun x => { x with active := false }) _ held isOpen rfl rfl
    rfl (fun _ _ => rfl) counted (.inl ⟨rfl, pos⟩)
  have one := spares_modify (d := d) s (fun x => { x with active := false }) fun _ => ⟨rfl, rfl⟩
  have held1 := Arena.get_modify_of (h := fun x : Descriptor => { x with active := false }) held
  rw [coManagerSendEof, withDesc_of_held held, setDesc_of_held held, coOsManagerUserspaceEof,
    withDesc_of_held held1]
  dsimp only
  split
  · rename_i irp
    rw [setDesc_of_held held1]
    have taken := inactive.touchOpen (f := fun x => { x with irp := false }) (d :: fr.refs) held1
      isOpen rfl rfl rfl
      (fun i other => List.count_cons_of_ne other.symm)
      (by
        rw [irp] at counted
        simp only [Bool.toNat_true, Bool.toNat_false, List.count_cons_self, incoming] at counted ⊢
        omega)
      (.inl ⟨rfl, pos⟩)
    have two := one.trans (spares_modify _ (fun x => { x with irp := false }) fun _ => ⟨rfl, rfl⟩)
    obtain ⟨closed, three⟩ := taken.closeMember (n := n) rfl
      (fun x' held' => by
        rw [Arena.get_modify_of held1] at held'
        cases held'
        exact member)
      (kept.spared two)
    exact ⟨closed, two.trans three⟩
  · exact ⟨inactive, one⟩

/-- The owner `d` of `m`, or code on its behalf, has emptied the first `k` slots. -/
structure Emptying (fr : Frame) (d : Nat) (x : Descriptor) (m k : Nat) (s : Opens) : Prop where
  inv : Inv fr s
  held : s.descs.get d = some x
  empty : ∀ y, s.mons.get m = some y → ∀ i < k, y.slot i = none
  owns : ∀ i, Owns s.descs i m → i = d

theorem slot_setSlot_ne {j : Nat} (other : i ≠ j) (slot : Option Nat) :
    (SharedMonitor.setSlot j slot y).slot i = y.slot i := by
  simp only [SharedMonitor.slot, SharedMonitor.setSlot, List.getD_eq_getElem?_getD,
    List.getElem?_set_ne other.symm]

theorem slot_setSlot_self (lt : i < y.connectedModules.length) (slot : Option Nat) :
    (SharedMonitor.setSlot i slot y).slot i = slot := by
  simp [SharedMonitor.slot, SharedMonitor.setSlot, lt]

theorem mem_of_slot (slot : y.slot i = some d) : some d ∈ y.connectedModules := by
  rw [SharedMonitor.slot, List.getD_eq_getElem?_getD] at slot
  cases get : y.connectedModules[i]? with
  | none => simp [get] at slot
  | some v =>
    rw [get] at slot
    cases slot
    exact List.mem_of_getElem? get

/-- Who is in a slot, beside the owner of the monitor. -/
theorem Inv.member_of_slot (inv : Inv fr s) (live : s.mons.get m = some y)
    (slot : y.slot i = some d) :
    ∃ x, s.descs.get d = some x ∧ d ∉ fr.closing ∧ x.monitorOwner = false := by
  have pos := pos_of_slot live (mem_of_slot slot)
  obtain ⟨x, held, isOpen⟩ := inv.held_of_ref (.inl pos)
  refine ⟨x, held, isOpen, ?_⟩
  apply Bool.eq_false_iff.mpr
  intro flagged
  have none := (inv.owner d x held flagged isOpen).1
  omega

section Emptying

variable {n k : Nat} (keeps : m ∈ fr.mons ∨ x.monitor = some m)
include keeps

theorem Emptying.keepsEnding (ending : fr.ending = some m) (e : Emptying fr d x m k s) {d' : Nat}
    (other : d' ≠ d) : KeepsEnding d' fr s := by
  intro m' ending'
  rw [ending] at ending'
  cases ending'
  exact keeps.imp_right fun points => ⟨d, x, other.symm, e.held, points⟩

theorem Emptying.live (e : Emptying fr d x m k s) : ∃ y, s.mons.get m = some y := by
  rcases keeps with mem | points
  · cases live : s.mons.get m with
    | none =>
      have none := (e.inv.noPointers m live).2
      have pos := List.count_pos_iff.mpr mem
      omega
    | some y => exact ⟨y, rfl⟩
  · exact e.inv.mon_of_pointer e.held points

variable (ending : fr.ending = some m) (flagged : x.monitorOwner = true)
include ending flagged

theorem Emptying.step (e : Emptying fr d x m k s) (lt : k < coMonitorModulesCount) :
    Emptying fr d x m (k + 1) (sendEndMessage (coManagerClose (n + 1)) m k s) := by
  obtain ⟨y, live⟩ := e.live keeps
  rw [sendEndMessage, withMon_of_live live]
  cases slot : y.slot k with
  | none =>
    refine ⟨e.inv, e.held, fun y' live' j hj => ?_, e.owns⟩
    rw [live] at live'
    cases live'
    rcases Nat.lt_succ_iff_lt_or_eq.mp hj with hj | rfl
    · exact e.empty y live j hj
    · exact slot
  | some d' =>
    dsimp only
    obtain ⟨x', held', isOpen, member⟩ := e.inv.member_of_slot live slot
    have other : d' ≠ d := by
      rintro rfl
      rw [e.held] at held'
      cases held'
      exact absurd (member.symm.trans flagged) nofun
    obtain ⟨inv1, one⟩ := e.inv.sendEof (n := n) held' isOpen member
      (e.keepsEnding keeps ending other)
    generalize coManagerSendEof (coManagerClose (n + 1)) d' s = s1 at inv1 one
    have e1 : Emptying fr d x m k s1 := by
      refine ⟨inv1, (one.descs d other.symm).trans e.held, fun y1 live1 j hj => ?_,
        fun i owns => e.owns i (one.owns owns)⟩
      obtain ⟨y0, live0, same⟩ := one.mons m y1 live1
      rw [SharedMonitor.slot, same]
      exact e.empty y0 live0 j hj
    obtain ⟨y1, live1⟩ := e1.live keeps
    obtain ⟨y0, live0, same⟩ := one.mons m y1 live1
    have slot1 : y1.slot k = some d' := by
      rw [live] at live0
      cases live0
      rw [SharedMonitor.slot, same]
      exact slot
    have inv2 := inv1.setSlot live1 lt none (d' :: fr.refs)
      (fun i => by
        rw [slot1, List.count_cons]
        by_cases same : d' = i <;> simp [same])
      nofun
    rw [Opens.setSlot, setMon_of_live live1]
    obtain ⟨inv3, three⟩ := inv2.closeMember (n := n) rfl
      (fun x1 held1 => (inv1.member_of_slot live1 slot1).elim fun x2 h => by
        have same := h.1.symm.trans held1
        cases same
        exact h.2.2)
      (e1.keepsEnding keeps ending other)
    refine ⟨inv3, (three.descs d other.symm).trans e1.held, fun y3 live3 j hj => ?_,
      fun i owns => e1.owns i (three.owns owns)⟩
    obtain ⟨y2, live2, same2⟩ := three.mons m y3 live3
    rw [SharedMonitor.slot, same2]
    have set := Arena.get_modify_of (h := SharedMonitor.setSlot k none) live1
    have eq := Option.some.inj (live2.symm.trans set)
    rw [eq]
    rcases Nat.lt_succ_iff_lt_or_eq.mp hj with hj | rfl
    · exact (slot_setSlot_ne (Nat.ne_of_lt hj) none).trans (e1.empty y1 live1 j hj)
    · exact slot_setSlot_self (by rw [inv1.shape m y1 live1]; exact lt) none

/-- The whole loop. -/
theorem Emptying.all (e : Emptying fr d x m 0 s) :
    Emptying fr d x m coMonitorModulesCount
      (sendMonitorEndMessages (coManagerClose (n + 1)) m s) := by
  have some : ∀ k ≤ coMonitorModulesCount, Emptying fr d x m k
      ((List.range k).foldl (fun s i => sendEndMessage (coManagerClose (n + 1)) m i s) s) := by
    intro k
    induction k with
    | zero => exact fun _ => e
    | succ k ih =>
      intro le
      rw [List.range_succ, List.foldl_append]
      exact (ih (Nat.le_of_succ_le le)).step keeps ending flagged le
  exact some _ (Nat.le_refl _)

end Emptying

/-- All slots are empty. -/
theorem Emptying.unconnected (e : Emptying fr d x m coMonitorModulesCount s)
    (live : s.mons.get m = some y) (i : Nat) : some i ∉ y.connectedModules := by
  intro mem
  obtain ⟨j, lt, get⟩ := List.getElem_of_mem mem
  have none := e.empty y live j (e.inv.shape m y live ▸ lt)
  rw [SharedMonitor.slot, List.getD_eq_getElem?_getD, List.getElem?_eq_getElem lt, get] at none
  exact absurd none nofun

/-! ## The close of any descriptor -/

/-- The monitor `m` is taken off the list. -/
def unlisted (m : Nat) (s : Opens) : Opens :=
  { s with
    mons := s.mons.modify m fun y => { y with listedInManager := false }
    monitors := s.monitors.erase m
    monitorsCount := s.monitorsCount - 1 }

theorem coMonitorRefdown_owner {close : Nat → Opens → Opens} (live : s.mons.get m = some y)
    (listed : y.listedInManager = true) (pos : 0 < y.refcount) :
    coMonitorRefdown close m true s =
      (sendMonitorEndMessages close m (s.unlisted m)).dropMonitor m := by
  rw [coMonitorRefdown, withMon_of_live live, if_pos pos, if_pos rfl, Opens.unlist,
    withMon_of_live live, if_pos listed, setMon_of_live live, unlisted]

namespace Inv

theorem listed_of_owner (inv : Inv fr s) (idle : fr.ending = none) (owns : Owns s.descs d m) :
    ∃ y, s.mons.get m = some y ∧ y.listedInManager = true := by
  obtain ⟨y, live⟩ : ∃ y, s.mons.get m = some y := by
    obtain ⟨x, held, -, points⟩ := owns
    exact inv.mon_of_pointer held points
  have listed := (inv.listed m (idle ▸ nofun)).mpr ⟨d, owns⟩
  exact ⟨y, live, (inv.flag m y live).mpr listed⟩

/-- The rest of the close of a descriptor that owns a monitor. -/
theorem closingOwner {n : Nat} {refs : List Nat} (inv : Inv { refs := refs, closing := [d] } s)
    (held : s.descs.get d = some x) (noIrp : x.irp = false) (flagged : x.monitorOwner = true)
    (points : x.monitor = some m) :
    Inv { refs := refs } (coManagerClose_ (coManagerClose (n + 1)) d s) := by
  have owns : Owns s.descs d m := ⟨x, held, flagged, points⟩
  obtain ⟨y, live, listed⟩ := inv.listed_of_owner rfl owns
  have unpointed := Arena.get_modify_of (h := fun x : Descriptor => { x with monitor := none }) held
  have cleared := (inv.unlist rfl owns).clearPointer (f := fun x => { x with monitor := none })
    held points rfl ⟨rfl, rfl, rfl⟩ (fun _ => List.mem_cons_self)
    (inv.idle_of_closing List.mem_cons_self) (fun _ => rfl)
  rw [coManagerClose_some held noIrp points, flagged,
    coMonitorRefdown_owner (s := s.unpoint d) live listed (inv.pointed m y live)]
  have emptying : Emptying { refs := refs, mons := [m], closing := [d], ending := some m } d
      { x with monitor := none } m 0 ((s.unpoint d).unlisted m) := by
    refine ⟨cleared, unpointed, fun _ _ j hj => absurd hj (Nat.not_lt_zero j), ?_⟩
    rintro i ⟨x', held', flagged', points'⟩
    by_cases same : i = d
    · exact same
    · have held' := (Arena.get_modify_ne same).symm.trans held'
      exact inv.oneOwner i d m ⟨x', held', flagged', points'⟩ owns
  replace flagged : { x with monitor := none }.monitorOwner = true := flagged
  have emptied := Emptying.all (n := n) (.inl List.mem_cons_self) rfl flagged emptying
  generalize sendMonitorEndMessages (Opens.coManagerClose (n + 1)) m _ = s1 at emptied ⊢
  obtain ⟨y1, live1⟩ := emptied.live (.inl List.mem_cons_self)
  have notOwned : ∀ i, ¬ Owns s1.descs i m := by
    intro i owned
    obtain rfl := emptied.owns i owned
    obtain ⟨x', held', -, points'⟩ := owned
    have same := emptied.held.symm.trans held'
    cases same
    exact absurd points' nofun
  have dropped := (emptied.inv.ended rfl (fun _ live' => emptied.unconnected live') notOwned
    ).dropMonitor rfl live1 nofun
  rw [dropMonitor_of_live live1,
    freeDesc_of_held (s := { s1 with mons := Inv.dropped m y1 s1.mons }) emptied.held]
  exact dropped.freeClosing rfl emptied.held rfl

/-- `co_manager_close` drops a reference, and frees what it was the last one to. -/
theorem coManagerClose {n : Nat} {refs : List Nat} (inv : Inv { refs := d :: refs } s) :
    Inv { refs := refs } (coManagerClose (n + 2) d s) := by
  obtain ⟨x, held, isOpen⟩ := inv.held_of_ref (d := d) (by simp)
  cases flagged : x.monitorOwner with
  | false =>
    refine (inv.closeMember rfl (fun x' held' => ?_) nofun).1
    have same := held.symm.trans held'
    cases same
    exact flagged
  | true =>
    by_cases last : x.refCount - 1 = 0
    swap
    · exact inv.closeMore rfl held isOpen last
    obtain ⟨noIrp, closing⟩ := inv.closing_of_last rfl held isOpen last
    obtain ⟨m, points⟩ := Option.isSome_iff_exists.mp (inv.owner d x held flagged isOpen).2
    rw [coManagerClose_last held last]
    exact closing.closingOwner (Arena.get_modify_of held) noIrp flagged points

theorem close {refs : List Nat} (inv : Inv { refs := d :: refs } s) :
    Inv { refs := refs } (s.close d) := by
  obtain ⟨x, held, -⟩ := inv.held_of_ref (d := d) (by simp)
  have lt := Arena.lt_next held
  have deep : s.depth = s.descs.next - 1 + 2 := by
    unfold depth
    omega
  rw [Opens.close, deep]
  exact inv.coManagerClose

end Inv

end CoLinux.Opens
