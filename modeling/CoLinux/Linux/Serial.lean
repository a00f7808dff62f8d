import CoLinux.Common.Messages
import CoLinux.Lib.Run
import Mathlib.Logic.Function.Basic

/-!
# Serial input of the guest (`cocd_interrupt` in the serial patch)

Messages to `CO_DEVICE_SERIAL` wait in one queue for all units. Each is queued with one interrupt,
and one interrupt takes at most one message. `cocd_open` and `cocd_close` hold `cocd_sem` over
several statements, and interrupts come between any two of them.
-/

namespace CoLinux

open Lib

/-- The index of a tty of `cocd_driver`. -/
abbrev SerialUnit := Fin coModuleMaxSerial

/-- The next statement of the process that holds `cocd_sem`. -/
inductive CocdPc where
  /-- `cocd_open` behind its `down`. -/
  | openTest (unit : SerialUnit)
  | openKmalloc (unit : SerialUnit)
  | openAttach (unit : SerialUnit)
  | openCount (unit : SerialUnit)
  /-- `cocd_close` behind its `down`. -/
  | closeTest (unit : SerialUnit)
  | closeFreeIrq (unit : SerialUnit)
  | closeDetach (unit : SerialUnit)
  | up
  deriving DecidableEq

/-- A node of the queue. `toOpen` records whether its unit was open when it came. -/
structure SerialNode where
  message : CoMessage
  toOpen : Bool

structure Serial where
  /-- `co_incoming_queued_messages[CO_DEVICE_SERIAL]`, oldest first. -/
  queue : List SerialNode
  /-- `cocd_interrupt` is the handler of `SERIAL_IRQ`. -/
  irq : Bool
  /-- The holder of `cocd_sem`. -/
  sem : Option CocdPc
  /-- `tty->driver_data`: the `open_count` of an open unit. -/
  driverData : SerialUnit → Option Nat
  /-- What has been inserted into each tty, oldest first. -/
  inserted : SerialUnit → List CoMessage
  /-- The messages that came for each unit while it was open, oldest first. -/
  arrived : SerialUnit → List CoMessage
  /-- An interrupt was handled with `cocd_sem` free and left a message in the queue. -/
  stranded : Bool

inductive SerialEvent where
  /-- `co_handle_incoming_message` with a message to `CO_DEVICE_SERIAL`. -/
  | message (m : CoMessage)
  /-- A process gets past the `down` of `cocd_open`. -/
  | cocdOpen (unit : SerialUnit)
  /-- A process gets past the `down` of `cocd_close`. -/
  | cocdClose (unit : SerialUnit)
  /-- The holder of `cocd_sem` executes its next statement. `granted` is the answer to
  `request_irq` (on a free line) and to `kmalloc`. -/
  | advance (granted : Bool)

/-- The tty a message is for: `cocd_driver->ttys[message->unit]`, where it has a `driver_data`. -/
def Serial.openUnit (s : Serial) (m : CoMessage) : Option SerialUnit :=
  if h : m.unit < coModuleMaxSerial then
    if (s.driverData ⟨m.unit, h⟩).isSome then some ⟨m.unit, h⟩ else none
  else none

/-- `f` with the message added to the list of its tty, where that is open. -/
def Serial.record (s : Serial) (m : CoMessage) (f : SerialUnit → List CoMessage) :
    SerialUnit → List CoMessage :=
  match s.openUnit m with
  | some unit => Function.update f unit (f unit ++ [m])
  | none => f

/-- `cocd_interrupt`. A message for a closed unit is lost. -/
def cocdInterrupt (s : Serial) : Serial :=
  if s.sem.isSome then s
  else
    match s.queue with
    | [] => s
    | input :: queue =>
      { s with
        queue := queue
        inserted := s.record input.message s.inserted
        stranded := s.stranded || !queue.isEmpty }

/-- `co_handle_incoming_message`, up to its interrupt. -/
def Serial.enqueue (s : Serial) (m : CoMessage) : Serial :=
  { s with
    queue := s.queue ++ [⟨m, (s.openUnit m).isSome⟩]
    arrived := s.record m s.arrived }

/-- `co_handle_incoming_message`. -/
def coHandleSerialMessage (m : CoMessage) (s : Serial) : Serial :=
  if s.irq then cocdInterrupt (s.enqueue m) else s.enqueue m

/-- The test of `driver_data` in `cocd_open`, with the `request_irq` behind it. The line is not
shared: the request is refused while it has a handler. -/
def Serial.openTest (s : Serial) (granted : Bool) (unit : SerialUnit) : Serial :=
  if (s.driverData unit).isSome then { s with sem := some (.openCount unit) }
  else if s.irq || !granted then { s with sem := some .up }
  else { s with irq := true, sem := some (.openKmalloc unit) }

/-- One statement of the holder of `cocd_sem`. -/
def Serial.advance (s : Serial) (granted : Bool) : CocdPc → Serial
  | .openTest unit => s.openTest granted unit
  | .openKmalloc unit => { s with sem := if granted then some (.openAttach unit) else some .up }
  | .openAttach unit =>
    { s with
      driverData := Function.update s.driverData unit (some 0)
      sem := some (.openCount unit) }
  | .openCount unit =>
    { s with
      driverData :=
        Function.update s.driverData unit ((s.driverData unit).map fun n => (n + 1) % wordSize)
      sem := some .up }
  | .closeTest unit =>
    { s with
      driverData := Function.update s.driverData unit
        ((s.driverData unit).map fun n => (n + (wordSize - 1)) % wordSize)
      sem := match s.driverData unit with
        | some n => if (n + (wordSize - 1)) % wordSize = 0 then some (.closeFreeIrq unit) else some .up
        | none => some .up }
  | .closeFreeIrq unit => { s with irq := false, sem := some (.closeDetach unit) }
  | .closeDetach unit =>
    { s with driverData := Function.update s.driverData unit none, sem := some .up }
  | .up => { s with sem := none }

def serialStep (e : SerialEvent) (s : Serial) : Serial :=
  match e with
  | .message m => coHandleSerialMessage m s
  | .cocdOpen unit => { s with sem := s.sem.or (some (.openTest unit)) }
  | .cocdClose unit => { s with sem := s.sem.or (some (.closeTest unit)) }
  | .advance granted => match s.sem with
    | some pc => s.advance granted pc
    | none => s

/-- After `cocd_init`. -/
def Serial.boot : Serial where
  queue := []
  irq := false
  sem := none
  driverData := fun _ => none
  inserted := fun _ => []
  arrived := fun _ => []
  stranded := false

/-- The messages for an open unit reach its tty once each and in order, all of them where
`cocd_sem` is free, and no interrupt handled with `cocd_sem` free has left a message behind. -/
structure Serial.Delivered (s : Serial) : Prop where
  in_order : ∀ unit, s.inserted unit <+: s.arrived unit
  complete : s.sem = none → ∀ unit, s.inserted unit = s.arrived unit
  drained : s.stranded = false

/-- The condition on a step: an interrupt that gets the semaphore finds no older message in the
queue, and none has come for an open unit while the semaphore was held. -/
def Timely (s : Serial) : SerialEvent → Prop
  | .message _ => s.sem = none → s.irq = true → s.queue = []
  | .advance _ => s.sem = some .up → ∀ node ∈ s.queue, node.toOpen = false
  | _ => True

/-- The queued messages that came for `unit` while it was open. -/
def Serial.waiting (s : Serial) (unit : SerialUnit) : List CoMessage :=
  (s.queue.filter fun node => node.toOpen && node.message.unit == unit.val).map (·.message)

/-- The line has its handler exactly as long as the driver needs it. -/
structure Serial.LineHeld (s : Serial) : Prop where
  single : ∀ u v, (s.driverData u).isSome → (s.driverData v).isSome → u = v
  handled : (∀ u, s.sem ≠ some (.closeDetach u)) → ∀ u, (s.driverData u).isSome → s.irq = true
  opening : ∀ u, s.sem = some (.openKmalloc u) ∨ s.sem = some (.openAttach u) →
    s.irq = true ∧ ∀ v, s.driverData v = none
  closing : ∀ u, s.sem = some (.closeFreeIrq u) ∨ s.sem = some (.closeDetach u) →
    (s.driverData u).isSome

/-- Nothing is lost as long as no interrupt leaves a message behind. -/
def Serial.Conserved (s : Serial) : Prop :=
  s.stranded = false → ∀ unit, s.inserted unit ++ s.waiting unit = s.arrived unit

variable {s : Serial}

theorem openUnit_some {m : CoMessage} {u : SerialUnit} (h : s.openUnit m = some u) :
    m.unit = u.val ∧ (s.driverData u).isSome := by
  unfold Serial.openUnit at h
  split_ifs at h with small isOpen
  cases h
  exact ⟨rfl, isOpen⟩

theorem record_apply (s : Serial) (m : CoMessage) (f : SerialUnit → List CoMessage)
    (u : SerialUnit) :
    s.record m f u = f u ++ if s.openUnit m = some u then [m] else [] := by
  unfold Serial.record
  cases h : s.openUnit m with
  | none => simp
  | some v =>
    by_cases same : v = u
    · subst same
      simp
    · simp [same, Function.update_of_ne (Ne.symm same)]

theorem waiting_enqueue (s : Serial) (m : CoMessage) (u : SerialUnit) :
    (s.enqueue m).waiting u = s.waiting u ++ if s.openUnit m = some u then [m] else [] := by
  unfold Serial.waiting Serial.enqueue
  simp only [List.filter_append, List.map_append]
  congr 1
  cases h : s.openUnit m with
  | none => simp
  | some v =>
    have unit := (openUnit_some h).1
    by_cases same : v = u
    · subst same
      simp [unit]
    · have other : ¬v.val = u.val := fun eq => same (Fin.ext eq)
      simp [unit, same, other]

theorem Serial.Conserved.enqueue (h : s.Conserved) (m : CoMessage) :
    (s.enqueue m).Conserved := by
  intro unstranded u
  rw [waiting_enqueue, ← List.append_assoc]
  show (s.inserted u ++ s.waiting u) ++ _ = s.record m s.arrived u
  rw [h unstranded u, record_apply]

/-- The interrupt of a message that meets an empty queue. -/
theorem coHandleSerialMessage_free {m : CoMessage} (free : s.sem = none) (irq : s.irq = true)
    (empty : s.queue = []) :
    coHandleSerialMessage m s =
      { s with inserted := s.record m s.inserted, arrived := s.record m s.arrived } := by
  unfold coHandleSerialMessage cocdInterrupt Serial.enqueue
  rw [if_pos irq, if_neg (by simp [free])]
  simp only [empty, List.nil_append, List.isEmpty_nil, Bool.not_true, Bool.or_false]
  rfl

/-- The interrupt of a message that meets an older one. -/
theorem coHandleSerialMessage_stranded {m : CoMessage} (free : s.sem = none) (irq : s.irq = true)
    (older : s.queue ≠ []) : (coHandleSerialMessage m s).stranded = true := by
  obtain ⟨node, queue, eq⟩ := List.exists_cons_of_ne_nil older
  unfold coHandleSerialMessage cocdInterrupt Serial.enqueue
  rw [if_pos irq, if_neg (by simp [free])]
  simp [eq]

/-- A message whose interrupt does not reach the queue. -/
theorem coHandleSerialMessage_held {m : CoMessage} (h : ¬(s.sem = none ∧ s.irq = true)) :
    coHandleSerialMessage m s = s.enqueue m := by
  unfold coHandleSerialMessage
  split_ifs with irq
  · unfold cocdInterrupt
    rw [if_pos]
    exact Option.isSome_iff_ne_none.mpr fun free => h ⟨free, irq⟩
  · rfl

theorem coHandleSerialMessage_conserved (h : s.Conserved) (m : CoMessage) :
    (coHandleSerialMessage m s).Conserved := by
  by_cases reached : s.sem = none ∧ s.irq = true
  · obtain ⟨free, irq⟩ := reached
    by_cases empty : s.queue = []
    · rw [coHandleSerialMessage_free free irq empty]
      intro unstranded u
      have before : s.inserted u = s.arrived u := by
        simpa [Serial.waiting, empty] using h unstranded u
      show s.record m s.inserted u ++ s.waiting u = s.record m s.arrived u
      rw [record_apply, record_apply, before]
      simp [Serial.waiting, empty]
    · intro unstranded
      rw [coHandleSerialMessage_stranded free irq empty] at unstranded
      contradiction
  · rw [coHandleSerialMessage_held reached]
    exact h.enqueue m

/-- Messages do not touch what `cocd_open` and `cocd_close` work on. -/
theorem coHandleSerialMessage_line (m : CoMessage) (s : Serial) :
    (coHandleSerialMessage m s).driverData = s.driverData ∧
      (coHandleSerialMessage m s).irq = s.irq ∧ (coHandleSerialMessage m s).sem = s.sem := by
  unfold coHandleSerialMessage cocdInterrupt Serial.enqueue
  repeat' split
  all_goals exact ⟨rfl, rfl, rfl⟩

/-- The holder of the semaphore does not touch the messages. -/
theorem advance_messages (s : Serial) (granted : Bool) (pc : CocdPc) :
    (s.advance granted pc).queue = s.queue ∧ (s.advance granted pc).inserted = s.inserted ∧
      (s.advance granted pc).arrived = s.arrived ∧
      (s.advance granted pc).stranded = s.stranded := by
  cases pc with
  | openTest u =>
    show (s.openTest granted u).queue = _ ∧ (s.openTest granted u).inserted = _ ∧
      (s.openTest granted u).arrived = _ ∧ (s.openTest granted u).stranded = _
    unfold Serial.openTest
    split_ifs <;> exact ⟨rfl, rfl, rfl, rfl⟩
  | _ => exact ⟨rfl, rfl, rfl, rfl⟩

theorem Serial.Conserved.congr {t : Serial} (h : s.Conserved) (queue : t.queue = s.queue)
    (inserted : t.inserted = s.inserted) (arrived : t.arrived = s.arrived)
    (stranded : t.stranded = s.stranded) : t.Conserved := by
  unfold Serial.Conserved Serial.waiting at h ⊢
  rw [queue, inserted, arrived, stranded]
  exact h

theorem Serial.LineHeld.congr {t : Serial} (h : s.LineHeld)
    (data : t.driverData = s.driverData) (irq : t.irq = s.irq) (sem : t.sem = s.sem) :
    t.LineHeld := by
  constructor
  · rw [data]
    exact h.single
  · rw [data, irq, sem]
    exact h.handled
  · rw [data, irq, sem]
    exact h.opening
  · rw [data, sem]
    exact h.closing

/-- A step of the holder that leaves the open units as they are and goes where nothing is known
of the line. -/
theorem Serial.LineHeld.goto {t : Serial} (h : s.LineHeld) {pc : CocdPc} (held : s.sem = some pc)
    (inUse : ∀ u, pc ≠ .closeDetach u)
    (data : ∀ u, (t.driverData u).isSome = (s.driverData u).isSome) (irq : t.irq = s.irq)
    (next : t.sem = none ∨ t.sem = some .up ∨ ∃ u, t.sem = some (.openCount u)) : t.LineHeld := by
  have line : ∀ u, (s.driverData u).isSome → s.irq = true :=
    h.handled fun u eq => inUse u (Option.some.inj (held.symm.trans eq))
  constructor
  · intro u v
    rw [data, data]
    exact h.single u v
  · intro _ u
    rw [data, irq]
    exact line u
  · intro u target
    rcases next with eq | eq | ⟨v, eq⟩ <;> simp [eq] at target
  · intro u target
    rcases next with eq | eq | ⟨v, eq⟩ <;> simp [eq] at target

theorem Serial.LineHeld.advance (h : s.LineHeld) {pc : CocdPc} (held : s.sem = some pc)
    (granted : Bool) : (s.advance granted pc).LineHeld := by
  have counted : ∀ (u : SerialUnit) (f : Nat → Nat) (v : SerialUnit),
      (Function.update s.driverData u ((s.driverData u).map f) v).isSome =
        (s.driverData v).isSome := by
    intro u f v
    by_cases same : v = u
    · subst same
      simp
    · rw [Function.update_of_ne same]
  cases pc with
  | openTest u =>
    show (s.openTest granted u).LineHeld
    unfold Serial.openTest
    split_ifs with isOpen refused
    · exact h.goto held (by simp) (fun _ => rfl) rfl (.inr (.inr ⟨u, rfl⟩))
    · exact h.goto held (by simp) (fun _ => rfl) rfl (.inr (.inl rfl))
    · -- the line was free, so no unit was open
      have closed : ∀ v, s.driverData v = none := by
        intro v
        refine Option.not_isSome_iff_eq_none.mp fun isOpen => ?_
        have irq := h.handled (by simp [held]) v isOpen
        simp [irq] at refused
      refine ⟨h.single, fun _ _ _ => rfl, fun _ _ => ⟨rfl, closed⟩, ?_⟩
      intro v target
      simp at target
  | openKmalloc u =>
    obtain ⟨irq, closed⟩ := h.opening u (.inl held)
    refine ⟨h.single, fun _ _ _ => irq, fun _ _ => ⟨irq, closed⟩, ?_⟩
    intro v target
    cases granted <;> simp [Serial.advance] at target
  | openAttach u =>
    obtain ⟨irq, closed⟩ := h.opening u (.inr held)
    refine ⟨?_, fun _ _ _ => irq, ?_, ?_⟩
    · have only : ∀ v, ((s.advance granted (.openAttach u)).driverData v).isSome → v = u := by
        intro v isOpen
        by_contra other
        simp [Serial.advance, Function.update_of_ne other, closed v] at isOpen
      intro v w hv hw
      exact (only v hv).trans (only w hw).symm
    · intro v target
      simp [Serial.advance] at target
    · intro v target
      simp [Serial.advance] at target
  | openCount u => exact h.goto held (by simp) (counted u _) rfl (.inr (.inl rfl))
  | closeTest u =>
    have line := h.handled (by simp [held])
    constructor
    · intro v w
      simp only [Serial.advance]
      rw [counted u, counted u]
      exact h.single v w
    · intro _ v
      simp only [Serial.advance]
      rw [counted u]
      exact line v
    · intro v target
      simp only [Serial.advance] at target
      cases hu : s.driverData u with
      | none => simp [hu] at target
      | some n =>
        rw [hu] at target
        dsimp only at target
        split_ifs at target <;> simp at target
    · intro v target
      simp only [Serial.advance] at target ⊢
      cases hu : s.driverData u with
      | none => simp [hu] at target
      | some n =>
        rw [hu] at target
        dsimp only at target
        split_ifs at target
        · have unit : u = v := by simpa using target
          subst unit
          simp
        · simp at target
  | closeFreeIrq u =>
    have isOpen := h.closing u (.inl held)
    refine ⟨h.single, fun away => absurd rfl (away u), ?_, ?_⟩
    · intro v target
      simp [Serial.advance] at target
    · intro v target
      have unit : u = v := by simpa [Serial.advance] using target
      exact unit ▸ isOpen
  | closeDetach u =>
    -- the only open unit is the one that goes
    have closed : ∀ v, (s.advance granted (.closeDetach u)).driverData v = none := by
      intro v
      by_cases same : v = u
      · subst same
        exact Function.update_self ..
      · refine (Function.update_of_ne same _ _).trans (Option.not_isSome_iff_eq_none.mp ?_)
        exact fun isOpen => same (h.single v u isOpen (h.closing u (.inr held)))
    refine ⟨?_, ?_, ?_, ?_⟩
    · intro v w hv
      simp [closed v] at hv
    · intro _ v hv
      simp [closed v] at hv
    · intro v target
      simp [Serial.advance] at target
    · intro v target
      simp [Serial.advance] at target
  | up => exact h.goto held (by simp) (fun _ => rfl) rfl (.inl rfl)

/-- A process that gets past a `down`. -/
theorem Serial.LineHeld.down (h : s.LineHeld) {pc : CocdPc}
    (start : ∃ u, pc = .openTest u ∨ pc = .closeTest u) :
    Serial.LineHeld { s with sem := s.sem.or (some pc) } := by
  cases held : s.sem with
  | some holder => exact h.congr rfl rfl held.symm
  | none =>
    obtain ⟨u, rfl | rfl⟩ := start
    all_goals
      refine ⟨h.single, fun _ => h.handled (by simp [held]), ?_, ?_⟩ <;>
        intro v target <;> simp at target

theorem coHandleSerialMessage_queue (m : CoMessage) (s : Serial) :
    ∀ node ∈ (coHandleSerialMessage m s).queue,
      node ∈ s.queue ∨ node = ⟨m, (s.openUnit m).isSome⟩ := by
  have added : ∀ node ∈ (s.enqueue m).queue,
      node ∈ s.queue ∨ node = ⟨m, (s.openUnit m).isSome⟩ := by
    intro node mem
    exact (List.mem_append.mp mem).imp_right List.mem_singleton.mp
  intro node mem
  unfold coHandleSerialMessage cocdInterrupt at mem
  split at mem
  · split at mem
    · exact added node mem
    · split at mem
      · exact added node mem
      · rename_i head queue eq
        exact added node (eq ▸ List.mem_cons_of_mem head mem)
  · exact added node mem

/-- What every step keeps. -/
structure Serial.Sound (s : Serial) : Prop where
  line : s.LineHeld
  conserved : s.Conserved
  tagged : ∀ node ∈ s.queue, node.toOpen = true → node.message.unit < coModuleMaxSerial

theorem Serial.Sound.step (h : s.Sound) (e : SerialEvent) : (serialStep e s).Sound := by
  obtain ⟨line, conserved, tagged⟩ := h
  cases e with
  | message m =>
    obtain ⟨data, irq, sem⟩ := coHandleSerialMessage_line m s
    refine ⟨line.congr data irq sem, coHandleSerialMessage_conserved conserved m, ?_⟩
    intro node mem isOpen
    rcases coHandleSerialMessage_queue m s node mem with mem | rfl
    · exact tagged node mem isOpen
    · obtain ⟨u, unit⟩ := Option.isSome_iff_exists.mp isOpen
      exact (openUnit_some unit).1 ▸ u.isLt
  | cocdOpen u => exact ⟨line.down ⟨u, .inl rfl⟩, conserved.congr rfl rfl rfl rfl, tagged⟩
  | cocdClose u => exact ⟨line.down ⟨u, .inr rfl⟩, conserved.congr rfl rfl rfl rfl, tagged⟩
  | advance granted =>
    cases held : s.sem with
    | none =>
      simp only [serialStep, held]
      exact ⟨line, conserved, tagged⟩
    | some pc =>
      obtain ⟨queue, inserted, arrived, stranded⟩ := advance_messages s granted pc
      simp only [serialStep, held]
      refine ⟨line.advance held granted, conserved.congr queue inserted arrived stranded, ?_⟩
      rw [queue]
      exact tagged

theorem boot_sound : Serial.boot.Sound := by
  refine ⟨⟨?_, ?_, ?_, ?_⟩, ?_, ?_⟩
  · intro u v hu
    simp [Serial.boot] at hu
  · intro _ u hu
    simp [Serial.boot] at hu
  · intro u target
    simp [Serial.boot] at target
  · intro u target
    simp [Serial.boot] at target
  · intro _ u
    rfl
  · intro node mem
    simp [Serial.boot] at mem

theorem boot_delivered : Serial.boot.Delivered :=
  ⟨fun _ => List.prefix_refl _, fun _ _ => rfl, rfl⟩

/-- Where no interrupt has left a message, everything is delivered exactly if nothing waits that
came for an open unit, or the semaphore is still held. -/
theorem Serial.Conserved.delivered_iff (h : s.Conserved) (unstranded : s.stranded = false) :
    s.Delivered ↔ (s.sem = none → ∀ unit, s.waiting unit = []) := by
  have total := h unstranded
  constructor
  · intro delivered free u
    have all := delivered.complete free u
    have sum := total u
    rw [all] at sum
    exact List.append_right_eq_self.mp sum
  · intro empty
    refine ⟨fun u => ⟨s.waiting u, total u⟩, fun free u => ?_, unstranded⟩
    rw [← total u, empty free u, List.append_nil]

/-- No message that came for an open unit waits, said unit by unit. -/
theorem waiting_eq_nil_iff
    (tagged : ∀ node ∈ s.queue, node.toOpen = true → node.message.unit < coModuleMaxSerial) :
    (∀ unit, s.waiting unit = []) ↔ ∀ node ∈ s.queue, node.toOpen = false := by
  constructor
  · intro empty node mem
    by_contra isOpen
    have isOpen : node.toOpen = true := by simpa using isOpen
    have none := empty ⟨node.message.unit, tagged node mem isOpen⟩
    simp only [Serial.waiting, List.map_eq_nil_iff, List.filter_eq_nil_iff] at none
    exact none node mem (by simp [isOpen])
  · intro closed u
    simp only [Serial.waiting, List.map_eq_nil_iff, List.filter_eq_nil_iff]
    intro node mem
    simp [closed node mem]

/-- A message keeps everything delivered exactly if its interrupt does not meet an older one. -/
theorem message_delivered_iff (sound : s.Sound) (good : s.Delivered) (m : CoMessage) :
    (coHandleSerialMessage m s).Delivered ↔ Timely s (.message m) := by
  have conserved := coHandleSerialMessage_conserved sound.conserved m
  by_cases reached : s.sem = none ∧ s.irq = true
  · obtain ⟨free, irq⟩ := reached
    constructor
    · intro delivered _ _
      by_contra older
      have stranded := coHandleSerialMessage_stranded (m := m) free irq older
      rw [delivered.drained] at stranded
      contradiction
    · intro timely
      have empty := timely free irq
      have state := coHandleSerialMessage_free (m := m) free irq empty
      rw [conserved.delivered_iff (by rw [state]; exact good.drained), state]
      intro _ u
      simp [Serial.waiting, empty]
  · have allowed : Timely s (.message m) := fun free irq => absurd ⟨free, irq⟩ reached
    refine ⟨fun _ => allowed, fun _ => ?_⟩
    rw [coHandleSerialMessage_held reached] at conserved ⊢
    refine (conserved.delivered_iff good.drained).mpr fun free u => ?_
    -- with the semaphore free and no handler no unit is open
    have free : s.sem = none := free
    have closed : s.openUnit m = none := by
      cases h : s.openUnit m with
      | none => rfl
      | some v =>
        have irq := sound.line.handled (by simp [free]) v (openUnit_some h).2
        exact absurd ⟨free, irq⟩ reached
    have before := (sound.conserved.delivered_iff good.drained).mp good free u
    rw [waiting_enqueue, before, closed]
    simp

/-- A statement of the holder keeps everything delivered exactly if it is not an `up` that comes
too late. -/
theorem advance_delivered_iff (sound : s.Sound) (good : s.Delivered) {pc : CocdPc}
    (held : s.sem = some pc) (granted : Bool) :
    (s.advance granted pc).Delivered ↔ Timely s (.advance granted) := by
  obtain ⟨queue, inserted, arrived, stranded⟩ := advance_messages s granted pc
  have waiting : (s.advance granted pc).waiting = s.waiting := by
    unfold Serial.waiting
    rw [queue]
  rw [(sound.conserved.congr queue inserted arrived stranded).delivered_iff
    (stranded.trans good.drained), waiting, waiting_eq_nil_iff sound.tagged]
  unfold Timely
  rw [held]
  cases pc with
  | up => simp [Serial.advance]
  | openTest u =>
    show ((s.openTest granted u).sem = none → _) ↔ _
    unfold Serial.openTest
    split_ifs <;> simp
  | openKmalloc u => cases granted <;> simp [Serial.advance]
  | closeTest u =>
    simp only [Serial.advance]
    split
    · split_ifs <;> simp
    · simp
  | _ => simp [Serial.advance]

theorem serialStep_delivered_iff (sound : s.Sound) (good : s.Delivered) (e : SerialEvent) :
    (serialStep e s).Delivered ↔ Timely s e := by
  cases e with
  | message m => exact message_delivered_iff sound good m
  | advance granted =>
    cases held : s.sem with
    | none =>
      simp only [serialStep, held, Timely]
      simp [good]
    | some pc =>
      simp only [serialStep, held]
      exact advance_delivered_iff sound good held granted
  | cocdOpen u =>
    refine ⟨fun _ => trivial, fun _ => ⟨good.in_order, fun free => ?_, good.drained⟩⟩
    simp [serialStep] at free
  | cocdClose u =>
    refine ⟨fun _ => trivial, fun _ => ⟨good.in_order, fun free => ?_, good.drained⟩⟩
    simp [serialStep] at free

/-- **Serial input.** Everything is delivered all through a run exactly if no interrupt that gets
the semaphore meets an older message, and no message for an open unit has come when the semaphore
is released. -/
theorem serial_delivered_iff (es : List SerialEvent) :
    (∀ p, p <+: es → (run serialStep p Serial.boot).Delivered) ↔
      RunOk serialStep Timely es Serial.boot := by
  have keeps : ∀ (s : Serial) e, s.Sound → (serialStep e s).Sound := fun _ e sound => sound.step e
  have kept_iff : ∀ (s : Serial) e, s.Sound → s.Delivered →
      ((serialStep e s).Delivered ↔ Timely s e) :=
    fun _ e sound good => serialStep_delivered_iff sound good e
  exact forall_prefix_iff_runOk keeps kept_iff boot_sound boot_delivered

/-- A message to unit 0. -/
def serialInput : CoMessage := coMessage 88 0 1 1 13 (coLinuxMessage 6 0 1 fun _ => 0x61)

/-- Unit 0 is opened, and opened once more; a message comes while the second `cocd_open` has the
semaphore, and another one when it is done. -/
def busyOpenRun : List SerialEvent :=
  [.cocdOpen 0, .advance true, .advance true, .advance true, .advance true, .advance true,
    .cocdOpen 0, .advance true, .message serialInput, .advance true, .advance true,
    .message serialInput]

/-- The interrupt of the second message inserts the first one and leaves the second. -/
theorem busyOpenRun_strands : ¬ (run serialStep busyOpenRun Serial.boot).Delivered := by
  intro delivered
  have drained := delivered.drained
  have stranded : (run serialStep busyOpenRun Serial.boot).stranded = true := by decide +kernel
  rw [drained] at stranded
  contradiction

end CoLinux
