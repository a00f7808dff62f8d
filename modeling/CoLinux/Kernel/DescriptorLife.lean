import CoLinux.Kernel.Proofs.DescriptorRequests

/-!
# The life of descriptors and of the monitors they share

The driver leaves to its callers that a descriptor attaches only while it points to no monitor,
names only modules that there are, and creates a monitor only while it is a module of none, and that
it is not closed in the middle of a message of its own ioctl. In every run in which they do, no block
is used after it is freed, the counts are those of the references that are stored, and when the last
file object is closed nothing is left but what `co_manager_open` gave up.
-/

namespace CoLinux.Opens

open Lib

variable {s : Opens}

/-- What `co_manager_ioctl` does not check. -/
def Disciplined (s : Opens) : OpensEvent → Prop
  | .create d _ _ => slots s.mons d = 0
  | .attach d _ modules =>
    (s.descs.get d).all (fun x => x.monitor.isNone) = true ∧
      ∀ i ∈ modules, i < coMonitorModulesCount
  | .monitorClose d | .deactiveAndClose d => s.Idle d
  | _ => True

instance (s : Opens) : ∀ e, Decidable (Disciplined s e)
  | .create d _ _ => inferInstanceAs (Decidable (slots s.mons d = 0))
  | .attach d _ modules => inferInstanceAs (Decidable
      ((s.descs.get d).all (fun x => x.monitor.isNone) = true ∧
        ∀ i ∈ modules, i < coMonitorModulesCount))
  | .monitorClose d => inferInstanceAs (Decidable (s.Idle d))
  | .deactiveAndClose d => inferInstanceAs (Decidable (s.Idle d))
  | .coManagerOpen _ => .isTrue trivial
  | .reset _ _ => .isTrue trivial
  | .read _ _ => .isTrue trivial
  | .cancel _ => .isTrue trivial
  | .incomingMessage _ _ => .isTrue trivial
  | .sendIncoming _ _ => .isTrue trivial

theorem held_of_handle {d : Nat} (has : s.HasHandle d) :
    ∃ x, s.descs.get d = some x ∧ x.handle = true := by
  unfold HasHandle at has
  cases held : s.descs.get d with
  | none => simp [held] at has
  | some x => exact ⟨x, rfl, by simpa [held] using has⟩

theorem held_of_irp {d : Nat} (has : s.HasIrp d) : ∃ x, s.descs.get d = some x := by
  unfold HasIrp at has
  cases held : s.descs.get d with
  | none => simp [held] at has
  | some x => exact ⟨x, rfl⟩

/-- A request that is not let through changes nothing. -/
theorem Inv.guarded {p : Prop} [Decidable p] {s' : Opens} (inv : Inv {} s) (next : p → Inv {} s') :
    Inv {} (if p then s' else s) := by
  split
  · rename_i through
    exact next through
  · exact inv

theorem Inv.step (inv : Inv {} s) (e : OpensEvent) (disciplined : Disciplined s e) :
    Inv {} (step e s) := by
  cases e with
  | coManagerOpen answer => exact inv.coManagerOpen answer
  | create d id granted =>
    apply inv.guarded
    intro has
    obtain ⟨x, held, -⟩ := held_of_handle has
    exact inv.create held disciplined id granted
  | attach d id modules =>
    apply inv.guarded
    intro has
    obtain ⟨x, held, handle⟩ := held_of_handle has
    have points : x.monitor = none := by simpa [held] using disciplined.1
    exact inv.attach held handle points id disciplined.2
  | monitorClose d =>
    apply inv.guarded
    intro has
    obtain ⟨x, held, -⟩ := held_of_handle has
    exact inv.monitorClose held disciplined
  | reset d granted =>
    apply inv.guarded
    intro has
    obtain ⟨x, held, -⟩ := held_of_handle has
    rw [inv.reset_eq held]
    exact inv
  | read d queued =>
    apply inv.guarded
    intro has
    obtain ⟨x, held, -⟩ := held_of_handle has
    exact inv.read held queued
  | cancel d =>
    apply inv.guarded
    intro has
    obtain ⟨x, held⟩ := held_of_irp has
    exact inv.cancel held
  | incomingMessage d module =>
    apply inv.guarded
    intro has
    obtain ⟨x, held, handle⟩ := held_of_handle has
    exact inv.incomingMessage held handle module
  | sendIncoming c filtered =>
    apply inv.guarded
    intro mem
    exact inv.sendIncoming mem filtered
  | deactiveAndClose d =>
    apply inv.guarded
    intro has
    obtain ⟨x, held, handle⟩ := held_of_handle has
    exact inv.deactiveAndClose held handle disciplined

theorem run_inv {es : List OpensEvent} (allowed : RunOk step Disciplined es start) :
    Inv {} (run step es start) :=
  run_invariant (fun _ e inv disciplined => inv.step e disciplined) start_inv allowed

/-! ## Exact books -/

/-- The references that are stored to the descriptor `d`. -/
def references (s : Opens) (d : Nat) (x : Descriptor) : Nat :=
  x.handle.toNat + x.irp.toNat + slots s.mons d + s.incoming.count d

/-- Nothing was used that is not held, and every count is that of what it counts. -/
structure Exact (s : Opens) : Prop where
  faults : s.faults = 0
  refCount : ∀ d x, s.descs.get d = some x → x.refCount = references s d x ∧ 0 < x.refCount
  freedDesc : ∀ d, s.descs.get d = none → slots s.mons d = 0 ∧ d ∉ s.incoming
  refcount : ∀ m y, s.mons.get m = some y → y.refcount = pointers s.descs m ∧ 0 < y.refcount
  freedMonitor : ∀ m, s.mons.get m = none → pointers s.descs m = 0 ∧ m ∉ s.monitors
  listed : ∀ m, m ∈ s.monitors ↔ ∃ d, Owns s.descs d m
  oneOwner : ∀ d d' m, Owns s.descs d m → Owns s.descs d' m → d = d'
  monitorsCount : s.monitors.Nodup ∧ s.monitorsCount = s.monitors.length
  numOpens : s.numOpens = s.descs.total fun _ => 1

theorem Inv.exact (inv : Inv {} s) : Exact s where
  faults := inv.faults
  refCount := fun d x held => ⟨inv.refCount d x held, inv.referenced d x held nofun⟩
  freedDesc := fun d gone =>
    ⟨(inv.noRefs d gone).1, List.count_eq_zero.mp (inv.noRefs d gone).2.1⟩
  refcount := fun m y live => ⟨inv.refcount m y live, inv.pointed m y live⟩
  freedMonitor := by
    intro m gone
    have none := (inv.noPointers m gone).1
    refine ⟨none, fun mem => ?_⟩
    obtain ⟨d, x, held, -, points⟩ := (inv.listed m nofun).mp mem
    have pos := pos_of_pointer held points
    omega
  listed := fun m => inv.listed m nofun
  oneOwner := inv.oneOwner
  monitorsCount := ⟨inv.onceListed, inv.count⟩
  numOpens := inv.opens

theorem run_exact (es : List OpensEvent) (allowed : RunOk step Disciplined es start) :
    Exact (run step es start) :=
  (run_inv allowed).exact

/-- A guest with a console and a daemon: the console waits for a message, gets one, and is closed;
the daemon is closed. -/
def session : List OpensEvent :=
  [.coManagerOpen .granted, .create 0 7 true, .coManagerOpen .noMutex, .coManagerOpen .granted,
    .attach 1 7 [0, 2], .read 1 false, .incomingMessage 0 2, .sendIncoming ⟨0, 0, some 1⟩ false,
    .read 1 false, .deactiveAndClose 0, .deactiveAndClose 1]

theorem run_exact_session : RunOk step Disciplined session start ∧ Exact (run step session start) :=
  ⟨by decide +kernel, run_exact session (by decide +kernel)⟩

/-- The file object of an ioctl is closed between the two parts of its message, after that of the
receiver: the rest of `incoming_message` comes to a monitor that is freed. -/
def closedMidway : List OpensEvent :=
  [.coManagerOpen .granted, .create 0 7 true, .coManagerOpen .granted, .attach 1 7 [0, 2],
    .incomingMessage 0 2, .deactiveAndClose 1, .deactiveAndClose 0, .sendIncoming ⟨0, 0, some 1⟩ false]

example : (run step closedMidway start).faults ≠ 0 := by decide +kernel

/-! ## Nothing is left -/

/-- There is no file object, no pending read and no message on its way. -/
def Quiet (s : Opens) : Prop :=
  s.descs.All (fun x => x.handle = false ∧ x.irp = false) ∧ s.messages = []

instance (s : Opens) : Decidable s.Quiet := inferInstanceAs (Decidable (_ ∧ _))

/-- A monitor in whose slots something is has an owner, which is in no slot itself. -/
theorem Inv.no_descs (inv : Inv {} s) (quiet : s.Quiet) (d : Nat) : s.descs.get d = none := by
  have slotted : ∀ d x, s.descs.get d = some x → 0 < slots s.mons d := by
    intro d x held
    have counted := inv.refCount d x held
    have pos := inv.referenced d x held List.not_mem_nil
    obtain ⟨handle, irp⟩ := quiet.1 d x held
    have none : s.incoming = [] := by rw [incoming, receivers, quiet.2, List.filterMap_nil]
    rw [handle, irp, none] at counted
    simp only [Bool.toNat_false, List.count_nil] at counted
    omega
  cases held : s.descs.get d with
  | none => rfl
  | some x =>
    refine absurd (Arena.total_eq_zero.mpr fun m y live => ?_) (Nat.ne_of_gt (slotted d x held))
    apply List.count_eq_zero.mpr
    refine inv.emptied m y live (fun mem => ?_) (Option.some_ne_none _).symm d
    obtain ⟨i, x', held', flagged, -⟩ := (inv.listed m (Option.some_ne_none _).symm).mp mem
    have unslotted := (inv.owner i x' held' flagged List.not_mem_nil).1
    have pos := slotted i x' held'
    omega

/-! ### What `co_manager_open` gives up -/

/-- `co_manager_open` returns without freeing what it allocated. -/
def givesUp : OpensEvent → Bool
  | .coManagerOpen .noMutex => true
  | _ => false

@[simp] theorem lost_setDesc (d : Nat) (f : Descriptor → Descriptor) (s : Opens) :
    (s.setDesc d f).lost = s.lost := (Apart.setDesc d f s).lost

@[simp] theorem lost_setMon (m : Nat) (h : SharedMonitor → SharedMonitor) (s : Opens) :
    (s.setMon m h).lost = s.lost := (Apart.setMon m h s).lost

@[simp] theorem lost_close (d : Nat) (s : Opens) : (s.close d).lost = s.lost :=
  (Apart.close d s).lost

theorem lost_withDesc {d : Nat} {next : Descriptor → Opens}
    (same : ∀ x, (next x).lost = s.lost) : (s.withDesc d next).lost = s.lost := by
  unfold withDesc
  split
  · rfl
  · exact same _

theorem lost_withMon {m : Nat} {next : SharedMonitor → Opens}
    (same : ∀ y, (next y).lost = s.lost) : (s.withMon m next).lost = s.lost := by
  unfold withMon
  split
  · rfl
  · exact same _

theorem lost_foldl {α : Type} {turn : Opens → α → Opens} (same : ∀ s a, (turn s a).lost = s.lost)
    (l : List α) (s : Opens) : (l.foldl turn s).lost = s.lost := by
  induction l generalizing s with
  | nil => rfl
  | cons a l ih => exact (ih _).trans (same s a)

theorem lost_create (d id : Nat) (granted : Bool) (s : Opens) :
    (s.create d id granted).lost = s.lost := by
  refine lost_withDesc fun x => ?_
  split
  · rfl
  · exact lost_setDesc ..

theorem lost_attachModule (d m : Nat) (s : Opens) (i : Nat) :
    (s.attachModule d m i).lost = s.lost := by
  refine lost_withMon fun y => ?_
  split
  · rfl
  · cases y.slot i <;> simp [setSlot]

theorem lost_attach (d id : Nat) (modules : List Nat) (s : Opens) :
    (s.attach d id modules).lost = s.lost := by
  unfold attach
  split
  · exact lost_setDesc ..
  · rw [lost_foldl (lost_attachModule d _), lost_setDesc, lost_setMon]

theorem lost_monitorClose (d : Nat) (s : Opens) : (s.monitorClose d).lost = s.lost := by
  refine lost_withDesc fun x => ?_
  cases x.monitor with
  | none => rfl
  | some m =>
    dsimp only
    rw [lost_setDesc]
    exact (Apart.coMonitorRefdown (Apart.coManagerClose _) ..).lost

theorem lost_reset (d : Nat) (granted : Bool) (s : Opens) :
    (s.reset d granted).lost = s.lost := by
  refine lost_withDesc fun x => ?_
  cases x.monitor with
  | none => rfl
  | some m =>
    dsimp only
    split
    · refine lost_withMon fun y => ?_
      split
      · rfl
      · exact lost_setMon m _ s
    · rfl

theorem lost_read (d : Nat) (queued : Bool) (s : Opens) : (s.read d queued).lost = s.lost := by
  refine lost_withDesc fun x => ?_
  split
  · exact lost_setDesc ..
  · rfl

theorem lost_cancel (d : Nat) (s : Opens) : (s.cancel d).lost = s.lost := by
  refine lost_withDesc fun x => ?_
  split
  · rw [lost_close, lost_setDesc]
  · rfl

theorem lost_incomingMessage (d module : Nat) (s : Opens) :
    (s.incomingMessage d module).lost = s.lost := by
  refine lost_withDesc fun x => ?_
  cases x.monitor with
  | none => rfl
  | some m =>
    refine lost_withMon fun y => ?_
    split
    · rfl
    cases y.slot module with
    | none => rfl
    | some opened =>
      refine lost_withDesc fun x => ?_
      split
      · rfl
      · exact lost_setDesc opened _ s

theorem lost_endMessage (c : Incoming) (s : Opens) : (s.endMessage c).lost = s.lost :=
  lost_withMon fun _ => rfl

theorem lost_deliver (c : Incoming) (d : Nat) (filtered : Bool) (s : Opens) :
    (s.deliver c d filtered).lost = s.lost := by
  refine lost_withMon fun _ => lost_withDesc fun x => ?_
  have dropped : ∀ s' : Opens, (s'.withMon c.monitor fun _ => s'.close d).lost = s'.lost :=
    fun s' => lost_withMon fun _ => lost_close d s'
  dsimp only
  rw [dropped]
  split
  · rw [lost_close, lost_setDesc]
  · rfl

theorem lost_sendIncoming (c : Incoming) (filtered : Bool) (s : Opens) :
    (s.sendIncoming c filtered).lost = s.lost := by
  unfold sendIncoming
  split
  · exact lost_endMessage c s
  · rw [lost_endMessage, lost_deliver]

theorem lost_leaveSlot (d m : Nat) (s : Opens) (i : Nat) : (s.leaveSlot d m i).lost = s.lost := by
  refine lost_withMon fun y => ?_
  split
  · rw [lost_close]
    exact lost_setMon ..
  · rfl

theorem lost_deactiveAndClose (d : Nat) (s : Opens) : (s.deactiveAndClose d).lost = s.lost := by
  refine lost_withDesc fun x => ?_
  dsimp only
  rw [lost_close]
  cases x.monitor with
  | none => exact lost_setDesc ..
  | some m => exact (lost_foldl (lost_leaveSlot d m) _ _).trans (lost_setDesc ..)

theorem lost_guarded {p : Prop} [Decidable p] {s' : Opens} (same : s'.lost = s.lost) :
    (if p then s' else s).lost = s.lost := by
  split
  · exact same
  · rfl

/-- Only `co_manager_open` gives up a block. -/
theorem lost_step (e : OpensEvent) (s : Opens) :
    (step e s).lost = s.lost + if givesUp e then 1 else 0 := by
  cases e with
  | coManagerOpen answer => cases answer <;> rfl
  | create d id granted => exact lost_guarded (lost_create d id granted s)
  | attach d id modules => exact lost_guarded (lost_attach d id modules s)
  | monitorClose d => exact lost_guarded (lost_monitorClose d s)
  | reset d granted => exact lost_guarded (lost_reset d granted s)
  | read d queued => exact lost_guarded (lost_read d queued s)
  | cancel d => exact lost_guarded (lost_cancel d s)
  | incomingMessage d module => exact lost_guarded (lost_incomingMessage d module s)
  | sendIncoming c filtered => exact lost_guarded (lost_sendIncoming c filtered s)
  | deactiveAndClose d => exact lost_guarded (lost_deactiveAndClose d s)

theorem lost_run (es : List OpensEvent) (s : Opens) :
    (run step es s).lost = s.lost + es.countP givesUp := by
  induction es generalizing s with
  | nil => rfl
  | cons e es ih =>
    rw [run_cons, ih, lost_step, List.countP_cons]
    omega

/-- When the last file object is closed, no read is pending and no message is on its way, every
descriptor that was opened and every monitor is freed. What is left are the blocks that
`co_manager_open` allocated in the calls in which `co_os_mutex_create` failed. -/
theorem run_quiet (es : List OpensEvent) (allowed : RunOk step Disciplined es start)
    (quiet : (run step es start).Quiet) :
    (∀ d, (run step es start).descs.get d = none) ∧ (∀ m, (run step es start).mons.get m = none) ∧
      (run step es start).monitors = [] ∧ (run step es start).monitorsCount = 0 ∧
      (run step es start).numOpens = 0 ∧ (run step es start).lost = es.countP givesUp := by
  have inv := run_inv allowed
  have lost := (lost_run es start).trans (Nat.zero_add _)
  generalize run step es start = s at inv quiet lost
  have noDescs := inv.no_descs quiet
  have noPointers : ∀ m, pointers s.descs m = 0 := fun m =>
    Arena.total_eq_zero.mpr fun d x held => absurd ((noDescs d).symm.trans held) nofun
  have noMonitors : s.monitors = [] := by
    apply List.eq_nil_iff_forall_not_mem.mpr
    intro m mem
    obtain ⟨d, x, held, -⟩ := (inv.listed m nofun).mp mem
    exact absurd ((noDescs d).symm.trans held) nofun
  refine ⟨noDescs, fun m => ?_, noMonitors, ?_, ?_, lost⟩
  · cases live : s.mons.get m with
    | none => rfl
    | some y =>
      have counted := inv.refcount m y live
      have pos := inv.pointed m y live
      rw [noPointers] at counted
      simp only [List.count_nil] at counted
      omega
  · rw [inv.count, noMonitors]
    rfl
  · rw [inv.opens]
    exact congrArg Nat.cast (Arena.total_eq_zero.mpr fun d x held =>
      absurd ((noDescs d).symm.trans held) nofun)

theorem run_quiet_session : (∀ d, (run step session start).descs.get d = none) ∧
    (∀ m, (run step session start).mons.get m = none) ∧ (run step session start).monitors = [] ∧
    (run step session start).monitorsCount = 0 ∧ (run step session start).numOpens = 0 ∧
    (run step session start).lost = session.countP givesUp :=
  run_quiet session (by decide +kernel) (by decide +kernel)

end CoLinux.Opens
